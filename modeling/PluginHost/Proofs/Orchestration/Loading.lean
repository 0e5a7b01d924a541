import Mathlib.Data.List.Forall2
import PluginHost.Proofs.Registry.BaseChain
/-!
What is loaded for a run.

A package comes to a module or to a fault, whatever has been loaded before it. Main statement: a batch is
loaded exactly if each of its packages is, and then their modules stand in the registry in order.
-/

namespace PluginHost

theorem mapError_eq_ok_iff {ε φ α : Type} {f : ε → φ} {x : Except ε α} {a : α} :
    x.mapError f = .ok a ↔ x = .ok a := by
  cases x <;> simp [Except.mapError]

theorem eq_ok_of_toOption {ε α : Type} {x : Except ε α} {a : α} (h : x.toOption = some a) : x = .ok a := by
  cases x with
  | error => cases h
  | ok => exact congrArg _ (Option.some.inj h)

/-- A module that a package comes to when it is loaded. -/
structure Package.Loads (package : Package) (loader : Loader Activator) (m : LoadedModule Activator) :
    Prop where
  identity : m.identity = package.identity
  isDependency : m.isDependency = false
  length : package.artifact.module.length ≤ maxModuleBytes
  image : package.artifact.image = .ok m.image
  code : loader package.artifact = .ok m.code

namespace Host

variable {σ : Type} (host : Host σ)

theorem loadPackage_eq_ok_iff {r s : Registry Activator} {package : Package} :
    host.loadPackage r package = .ok s ↔
      ∃ m, package.Loads host.loader m ∧ s = r.add m := by
  rw [loadPackage, mapError_eq_ok_iff, Registry.loadModule, Registry.load_eq_ok_iff]
  refine exists_congr fun m => and_congr_left fun _ => ?_
  rw [LoadedModule.ofArtifact?_eq_some_iff]
  constructor
  · rintro ⟨hlength, image, code, himage, hcode, rfl⟩
    exact ⟨rfl, rfl, hlength, himage, hcode⟩
  · obtain ⟨identity, image, isDependency, code⟩ := m
    rintro ⟨rfl, rfl, hlength, himage, hcode⟩
    exact ⟨hlength, image, code, himage, hcode, rfl⟩

theorem loadAll_append_eq_ok_iff {r s : Registry Activator} {before after : List Package} :
    loadAll host.loadPackage r (before ++ after) = .ok s ↔
      ∃ next, loadAll host.loadPackage r before = .ok next ∧ loadAll host.loadPackage next after = .ok s := by
  rw [loadAll, List.foldlM_append]
  cases List.foldlM host.loadPackage r before <;> simp [bind, Except.bind]

theorem loadAll_cons_eq_ok_iff {r s : Registry Activator} {package : Package} {rest : List Package} :
    loadAll host.loadPackage r (package :: rest) = .ok s ↔
      ∃ m, package.Loads host.loader m ∧ loadAll host.loadPackage (r.add m) rest = .ok s := by
  rw [loadAll, List.foldlM_cons]
  constructor
  · intro h
    cases hload : host.loadPackage r package with
    | error fault =>
      rw [hload] at h
      cases h
    | ok next =>
      obtain ⟨m, hm, rfl⟩ := host.loadPackage_eq_ok_iff.mp hload
      rw [hload] at h
      exact ⟨m, hm, h⟩
  · rintro ⟨m, hm, h⟩
    rw [host.loadPackage_eq_ok_iff.mpr ⟨m, hm, rfl⟩]
    exact h

theorem loadAll_eq_ok_iff {r s : Registry Activator} {packages : List Package} :
    loadAll host.loadPackage r packages = .ok s ↔
      ∃ modules, List.Forall₂ (fun package m => package.Loads host.loader m) packages modules ∧
        s = r.addAll modules := by
  induction packages generalizing r with
  | nil => simp [loadAll, pure, Except.pure, Registry.addAll, eq_comm]
  | cons package rest ih =>
    rw [loadAll_cons_eq_ok_iff]
    simp only [ih]
    constructor
    · rintro ⟨m, hm, modules, hmodules, rfl⟩
      exact ⟨m :: modules, .cons hm hmodules, rfl⟩
    · rintro ⟨_, _ | ⟨hm, hmodules⟩, rfl⟩
      exact ⟨_, hm, _, hmodules, rfl⟩

/-- Without dependencies the registry holds the modules of the batch. -/
theorem prepare_of_loads {hooks : HookTable} (hpatchable : hooks.isPatchable = true)
    (hdependencies : host.dependencies = []) {packages : List Package}
    {modules : List (LoadedModule Activator)}
    (h : List.Forall₂ (fun package m => package.Loads host.loader m) packages modules) :
    host.prepare hooks packages = .ok (.addAll .empty modules) := by
  have hloaded : loadAll host.loadPackage .empty packages = .ok (.addAll .empty modules) :=
    host.loadAll_eq_ok_iff.mpr ⟨modules, h, rfl⟩
  have hstart : loadAll host.loadDependency .empty host.dependencies = .ok .empty := by
    rw [hdependencies]
    rfl
  rw [prepare, hstart, createEngine, if_pos hpatchable]
  exact hloaded

end Host

end PluginHost
