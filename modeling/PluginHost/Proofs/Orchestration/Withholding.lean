import PluginHost.Proofs.Orchestration.Loading
/-!
Batches in which a plugin type is marked abstract.

A type that is marked abstract stays in its module with its base type and its methods, so whatever is looked
up in the registry comes out as before. Main statement: the batch is loaded as before, and all that is
missing from its plugins is the one.
-/

namespace PluginHost

namespace TypeDef

def markAbstract (t : TypeDef) : TypeDef := { t with isAbstract := true }

/-- Marks a type abstract if it has the given name. -/
def withhold (name : String) (t : TypeDef) : TypeDef := if t.fullName = name then t.markAbstract else t

@[simp]
theorem withhold_fullName (name : String) (t : TypeDef) : (t.withhold name).fullName = t.fullName := by
  rw [withhold]
  split <;> rfl

@[simp]
theorem withhold_markAbstract (name : String) (t : TypeDef) :
    (t.withhold name).markAbstract = t.markAbstract := by
  rw [withhold]
  split <;> rfl

/-- A type that can still have instances has not been marked. -/
theorem of_withhold_isConcrete {name : String} {t : TypeDef} (h : (t.withhold name).isConcrete = true) :
    t.fullName ≠ name ∧ t.isConcrete = true := by
  rw [withhold] at h
  split at h
  · simp [isConcrete, markAbstract] at h
  · next hname => exact ⟨hname, h⟩

end TypeDef

namespace Image

/-- The image in which the types of a name are marked abstract. -/
def withhold (image : Image) (name : String) : Image :=
  { image with
    modules := image.modules.map fun m => { m with types := m.types.map (TypeDef.withhold name) } }

theorem withhold_types (image : Image) (name : String) :
    (image.withhold name).types = image.types.map (TypeDef.withhold name) := by
  simp only [withhold, types, List.flatMap_map, List.map_flatMap]

theorem withhold_findType? (image : Image) (name full : String) :
    (image.withhold name).findType? full = (image.findType? full).map (TypeDef.withhold name) := by
  simp only [findType?, withhold_types, List.find?_map, Function.comp_def, TypeDef.withhold_fullName]

end Image

namespace Registry

variable {γ : Type} {r s : Registry γ}

/-- Two registries in which the same types are found, up to whether they are abstract. -/
structure Resembles (r s : Registry γ) : Prop where
  resolve : ∀ name, (s.resolve? name).map TypeDef.markAbstract = (r.resolve? name).map TypeDef.markAbstract
  typeCount : s.typeCount = r.typeCount

namespace Resembles

/-- What a lookup finds is missing in both registries or has the same name, base type and methods. -/
theorem resolve?_cases (h : r.Resembles s) (name : String) :
    (r.resolve? name = none ∧ s.resolve? name = none) ∨
      ∃ t u, r.resolve? name = some t ∧ s.resolve? name = some u ∧ u.fullName = t.fullName ∧
        u.baseType = t.baseType ∧ u.methods = t.methods := by
  have hresolve := h.resolve name
  cases ht : r.resolve? name with
  | none =>
    rw [ht, Option.map_none, Option.map_eq_none_iff] at hresolve
    exact .inl ⟨rfl, hresolve⟩
  | some t =>
    rw [ht, Option.map_some, Option.map_eq_some_iff] at hresolve
    obtain ⟨u, hu, hmarked⟩ := hresolve
    exact .inr ⟨t, u, rfl, hu, (congrArg TypeDef.fullName hmarked :),
      (congrArg TypeDef.baseType hmarked :), (congrArg TypeDef.methods hmarked :)⟩

theorem reaches (h : r.Resembles s) (base : String) (fuel : Nat) (seen : List String) (name : String) :
    s.reaches base fuel seen name = r.reaches base fuel seen name := by
  induction fuel generalizing seen name with
  | zero => rfl
  | succ fuel ih =>
    rw [Registry.reaches, Registry.reaches]
    obtain ⟨hr, hs⟩ | ⟨t, u, hr, hs, hname, hbase, _⟩ := h.resolve?_cases name
    · rw [hr, hs]
    · rw [hr, hs]
      simp only [hname, hbase, ih]

theorem derivesFrom (h : r.Resembles s) (name base : String) :
    s.derivesFrom name base = r.derivesFrom name base := by
  rw [Registry.derivesFrom, Registry.derivesFrom, h.typeCount, h.reaches]

theorem resolvesFunction (h : r.Resembles s) (f : FunctionName) :
    s.resolvesFunction f = r.resolvesFunction f := by
  rw [Registry.resolvesFunction, Registry.resolvesFunction]
  obtain ⟨hr, hs⟩ | ⟨t, u, hr, hs, _, _, hmethods⟩ := h.resolve?_cases f.declaringType
  · rw [hr, hs]
  · rw [hr, hs, Option.any_some, Option.any_some, hmethods]

theorem pluginsOf (h : r.Resembles s) (m : LoadedModule γ) : s.pluginsOf m = r.pluginsOf m := by
  simp only [Registry.pluginsOf, h.derivesFrom]

end Resembles

variable {before after : List (LoadedModule γ)} {m n : LoadedModule γ} {name : String}

theorem resembles_of_withhold (hr : r.modules = before ++ m :: after) (hs : s.modules = before ++ n :: after)
    (himage : n.image = m.image.withhold name) : r.Resembles s where
  resolve full := by
    simp only [resolve?_eq, hr, hs, List.findSome?_append, List.findSome?_cons, himage,
      Image.withhold_findType?]
    cases before.findSome? fun m => m.image.findType? full with
    | some t => rfl
    | none =>
      cases m.image.findType? full with
      | none => rfl
      | some t => exact congrArg some (t.withhold_markAbstract name)
  typeCount := by
    simp [typeCount, hr, hs, List.flatMap_append, himage, Image.withhold_types]

theorem mem_pluginsOf {q : DiscoveredPlugin γ} :
    q ∈ r.pluginsOf m ↔ ∃ t ∈ m.image.types, t.isConcrete = true ∧
      r.derivesFrom t.fullName pluginBaseType = true ∧ q = ⟨m.identity, t.fullName, m.code⟩ := by
  simp only [pluginsOf, List.mem_map, List.mem_filter, Bool.and_eq_true, and_assoc, eq_comm (b := q)]

/-- The plugins of some of the modules. -/
def discoverIn (r : Registry γ) (modules : List (LoadedModule γ)) : List (DiscoveredPlugin γ) :=
  (modules.filter fun m => !m.isDependency).flatMap r.pluginsOf

theorem discover_append_cons (hmodules : r.modules = before ++ m :: after) (hm : m.isDependency = false) :
    r.discover = r.discoverIn before ++ (r.pluginsOf m ++ r.discoverIn after) := by
  simp [discover, discoverIn, hmodules, hm]

theorem Resembles.discoverIn (h : r.Resembles s) (modules : List (LoadedModule γ)) :
    s.discoverIn modules = r.discoverIn modules := by
  have hpluginsOf : s.pluginsOf = r.pluginsOf := funext h.pluginsOf
  rw [Registry.discoverIn, Registry.discoverIn, hpluginsOf]

theorem derivesFrom_of_mem_discover {p : DiscoveredPlugin γ} (hp : p ∈ r.discover) :
    r.derivesFrom p.typeName pluginBaseType = true := by
  obtain ⟨m, _, hm⟩ := List.mem_flatMap.mp hp
  obtain ⟨t, _, _, hderives, rfl⟩ := mem_pluginsOf.mp hm
  exact hderives

/-- The plugins of the other modules stay, and the module has no other plugin than the one. -/
theorem discover_of_withhold {p : DiscoveredPlugin γ} (hr : r.modules = before ++ m :: after)
    (hs : s.modules = before ++ n :: after)
    (halone : r.discover.filter (·.identity = p.identity) = [p])
    (hm : m.identity = p.identity) (hplugin : m.isDependency = false)
    (hdefines : ∃ t ∈ m.image.types, t.isConcrete = true ∧ t.fullName = p.typeName)
    (hn : n.isDependency = false) (himage : n.image = m.image.withhold p.typeName) :
    s.discover = r.discover.filter (·.identity ≠ p.identity) := by
  have hresembles : r.Resembles s := resembles_of_withhold hr hs himage
  have hdiscover := discover_append_cons hr hplugin
  have hremaining := discover_append_cons hs hn
  rw [hresembles.discoverIn, hresembles.discoverIn] at hremaining
  have hown : ∀ q ∈ r.pluginsOf m, q.identity = p.identity := by
    intro q hq
    obtain ⟨_, _, _, _, rfl⟩ := mem_pluginsOf.mp hq
    exact hm
  have hp : p ∈ r.discover := 
    (List.mem_filter.mp (halone ▸ List.mem_singleton_self p)).1
  obtain ⟨t, ht, hconcrete, hname⟩ := hdefines
  have hmember : ⟨m.identity, t.fullName, m.code⟩ ∈ r.pluginsOf m :=
    mem_pluginsOf.mpr ⟨t, ht, hconcrete, hname ▸ derivesFrom_of_mem_discover hp, rfl⟩
  -- The module has a plugin, so the one plugin of the identity is the only one in it.
  have hself : (r.pluginsOf m).filter (·.identity = p.identity) = r.pluginsOf m :=
    List.filter_eq_self.mpr (by simpa using hown)
  rw [hdiscover, List.filter_append, List.filter_append, hself] at halone
  obtain ⟨hbefore, honly, hafter⟩ : (r.discoverIn before).filter (·.identity = p.identity) = [] ∧
      r.pluginsOf m = [p] ∧ (r.discoverIn after).filter (·.identity = p.identity) = [] := by
    have hne : r.pluginsOf m ≠ [] := List.ne_nil_of_mem hmember
    rcases List.append_eq_singleton_iff.mp halone with ⟨hnil, hrest⟩ | ⟨_, hrest⟩
    · rcases List.append_eq_singleton_iff.mp hrest with ⟨hnone, _⟩ | ⟨hone, hlast⟩
      · exact absurd hnone hne
      · exact ⟨hnil, hone, hlast⟩
    · exact absurd (List.append_eq_nil_iff.mp hrest).1 hne
  have hnone : s.pluginsOf n = [] := by
    refine List.eq_nil_iff_forall_not_mem.mpr fun q hq => ?_
    rw [hresembles.pluginsOf] at hq
    obtain ⟨u, hu, hconcrete, hderives, _⟩ := mem_pluginsOf.mp hq
    rw [himage, Image.withhold_types] at hu
    obtain ⟨t, ht, rfl⟩ := List.mem_map.mp hu
    obtain ⟨hother, hconcrete⟩ := TypeDef.of_withhold_isConcrete hconcrete
    rw [TypeDef.withhold_fullName] at hderives
    have hq := mem_pluginsOf.mpr ⟨t, ht, hconcrete, hderives, rfl⟩
    rw [honly, List.mem_singleton] at hq
    exact hother (congrArg DiscoveredPlugin.typeName hq)
  have hkept : ∀ plugins : List (DiscoveredPlugin γ), plugins.filter (·.identity = p.identity) = [] →
      plugins.filter (·.identity ≠ p.identity) = plugins := by
    intro plugins h
    simpa [List.filter_eq_self, List.filter_eq_nil_iff] using h
  rw [hremaining, hnone, hdiscover, List.filter_append, List.filter_append, hkept _ hbefore,
    hkept _ hafter, honly]
  simp

end Registry

namespace Package

/-- A package that is loaded in place of another. Its image is the same, but that the type of a plugin is
    marked abstract. -/
structure Withholds (withheld given : Package) (loader : Loader Activator) (p : DiscoveredPlugin Activator) :
    Prop where
  given_identity : given.identity = p.identity
  withheld_identity : withheld.identity = p.identity
  image : ∃ image, given.artifact.image = .ok image ∧
    (∃ t ∈ image.types, t.isConcrete = true ∧ t.fullName = p.typeName) ∧
    withheld.artifact.image = .ok (image.withhold p.typeName)
  length : withheld.artifact.module.length ≤ maxModuleBytes
  code : ∃ code, loader withheld.artifact = .ok code

end Package

namespace Host

variable {σ : Type} (host : Host σ)

/-- Another package in place of one that was loaded is loaded, too, into the same place. -/
theorem loadAll_replace {r s : Registry Activator} {before after : List Package} {given withheld : Package}
    {n : LoadedModule Activator} (hwithheld : withheld.Loads host.loader n)
    (h : loadAll host.loadPackage r (before ++ given :: after) = .ok s) :
    ∃ first m last replaced, given.Loads host.loader m ∧ s.modules = first ++ m :: last ∧
      loadAll host.loadPackage r (before ++ withheld :: after) = .ok replaced ∧
      replaced.modules = first ++ n :: last := by
  obtain ⟨first, hbefore, hgiven⟩ := host.loadAll_append_eq_ok_iff.mp h
  obtain ⟨_, hmodules, rfl⟩ := host.loadAll_eq_ok_iff.mp hgiven
  obtain _ | ⟨hm, hlast⟩ := hmodules
  refine ⟨first.modules, _, _, first.addAll (n :: _), hm, first.modules_addAll _, ?_, first.modules_addAll _⟩
  exact host.loadAll_append_eq_ok_iff.mpr
    ⟨first, hbefore, host.loadAll_eq_ok_iff.mpr ⟨_, .cons hwithheld hlast, rfl⟩⟩

/-- A plugin that has its identity to itself is withheld: the batch is loaded all the same, every lookup
    comes out as before, and the other plugins are found in the same order. -/
theorem prepare_withheld {hooks : HookTable} {r : Registry Activator} {before after : List Package}
    {given withheld : Package} {p : DiscoveredPlugin Activator}
    (hprepare : host.prepare hooks (before ++ given :: after) = .ok r)
    (halone : r.discover.filter (·.identity = p.identity) = [p])
    (hwithheld : withheld.Withholds given host.loader p) :
    ∃ s, host.prepare hooks (before ++ withheld :: after) = .ok s ∧ r.Resembles s ∧
      s.discover = r.discover.filter (·.identity ≠ p.identity) := by
  obtain ⟨image, hgiven, hdefines, himage⟩ := hwithheld.image
  obtain ⟨code, hcode⟩ := hwithheld.code
  have hloads : withheld.Loads host.loader
      ⟨withheld.identity, image.withhold p.typeName, false, code⟩ :=
    ⟨rfl, rfl, hwithheld.length, himage, hcode⟩
  cases hdependencies : loadAll host.loadDependency .empty host.dependencies with
  | error fault =>
    rw [prepare, hdependencies] at hprepare
    cases hprepare
  | ok start =>
    cases hengine : (createEngine hooks).mapError fun fault => RunFault.engineConstruction fault.message with
    | error fault =>
      rw [prepare, hdependencies, hengine] at hprepare
      cases hprepare
    | ok engine =>
      simp only [prepare, hdependencies, hengine] at hprepare ⊢
      obtain ⟨first, m, last, s, hm, hr, hreplaced, hs⟩ := host.loadAll_replace hloads hprepare
      have hread : m.image = image := Except.ok.inj (hm.image.symm.trans hgiven)
      refine ⟨s, hreplaced, Registry.resembles_of_withhold hr hs (by rw [hread]), ?_⟩
      exact Registry.discover_of_withhold hr hs halone (hm.identity.trans hwithheld.given_identity) hm.isDependency
        (hread ▸ hdefines) rfl (by rw [hread])

end Host

end PluginHost
