import PluginHost.Image.Artifact
import PluginHost.Fault
import PluginHost.Patching.Patch
import PluginHost.SortedMap
/-!
The registry of a run: the modules that were loaded, and the plugins in them.

Types are looked up here only, so a plugin sees its dependencies and the modules of its batch and
nothing else of the host.
-/

namespace PluginHost

/-- The type that every plugin derives from. -/
def pluginBaseType : String := "Patchwork.Plugin"

/-- The longest module stream that is loaded. -/
def maxModuleBytes : Nat := 64 * 1024 * 1024

/-- A module with its code, which is a `γ`. -/
structure LoadedModule (γ : Type) where
  identity : String
  image : Image
  /-- Dependencies can be referred to, but no plugins are looked for in them. -/
  isDependency : Bool
  code : γ

/-- A plugin type in a loaded module. -/
structure DiscoveredPlugin (γ : Type) where
  identity : String
  typeName : String
  code : γ

/-- The loaded modules, in load order, and an index of the types in them. -/
structure Registry (γ : Type) where
  modules : List (LoadedModule γ)
  /-- The position of the module in which a full name is looked up. -/
  index : SortedMap String Nat
  /-- A name is looked up in the first module that defines it. -/
  indexed : ∀ name, index.get? name = modules.findIdx? fun m => (m.image.findType? name).isSome

/-- What turns an artifact into code. -/
abbrev Loader (γ : Type) := Artifact → Except HostFault γ

namespace Registry

variable {γ : Type}

def empty : Registry γ := ⟨[], .empty, fun _ => rfl⟩

/-- Notes a position under the names of some types. A name that has a position keeps it. -/
def enter (position : Nat) (index : SortedMap String Nat) (types : List TypeDef) :
    SortedMap String Nat :=
  types.foldl (fun index t => index.insertNew t.fullName position) index

theorem get?_enter (position : Nat) (index : SortedMap String Nat) (types : List TypeDef)
    (name : String) :
    (enter position index types).get? name =
      (index.get? name).or (if types.any (·.fullName = name) then some position else none) := by
  induction types generalizing index with
  | nil => simp [enter]
  | cons t rest ih =>
    rw [enter, List.foldl_cons, ← enter, ih, SortedMap.get?_insertNew]
    by_cases h : t.fullName = name
    · cases index.get? name <;> simp [h]
    · simp [h, Ne.symm h]

/-- Puts a module after the others. -/
def add (r : Registry γ) (m : LoadedModule γ) : Registry γ where
  modules := r.modules ++ [m]
  index := enter r.modules.length r.index m.image.types
  indexed name := by
    have hdefines : (m.image.findType? name).isSome = m.image.types.any (·.fullName = name) :=
      List.isSome_find?
    rw [get?_enter, r.indexed, List.findIdx?_append, List.findIdx?_singleton, hdefines]
    cases m.image.types.any (·.fullName = name) <;> simp

/-- Loads a module, if it is not too long, its image can be read and there is code for it. -/
def load (r : Registry γ) (loader : Loader γ) (identity : String) (isDependency : Bool)
    (artifact : Artifact) : Except HostFault (Registry γ) := do
  if artifact.module.length > maxModuleBytes then
    throw (.moduleLoad identity ("module too large: " ++ Fault.number artifact.module.length ++
      " bytes (limit " ++ Fault.number maxModuleBytes ++ ")"))
  match artifact.image with
  | .error fault => throw (.moduleLoad identity fault.message)
  | .ok image =>
    let code ← loader artifact
    return r.add ⟨identity, image, isDependency, code⟩

/-- Loads a dependency under the name of its artifact. -/
def loadDependency (r : Registry γ) (loader : Loader γ) (artifact : Artifact) :
    Except HostFault (Registry γ) := r.load loader artifact.name true artifact

/-- Loads a plugin module under an identity. -/
def loadModule (r : Registry γ) (loader : Loader γ) (identity : String) (artifact : Artifact) :
    Except HostFault (Registry γ) := r.load loader identity false artifact

/-- The definition of a name in the module that the index names. -/
def resolve? (r : Registry γ) (name : String) : Option TypeDef := do
  let position ← r.index.get? name
  let m ← r.modules[position]?
  m.image.findType? name

/-- What is found is the first definition of the name in the first module that has one. -/
theorem resolve?_eq (r : Registry γ) (name : String) :
    r.resolve? name = r.modules.findSome? fun m => m.image.findType? name := by
  rw [resolve?, r.indexed]
  induction r.modules with
  | nil => rfl
  | cons m rest ih =>
    rw [List.findIdx?_cons, List.findSome?_cons]
    cases h : m.image.findType? name with
    | some t => simp [h]
    | none =>
      rw [← ih]
      cases rest.findIdx? fun m => (m.image.findType? name).isSome <;> simp

/-- The number of type definitions in all modules. -/
def typeCount (r : Registry γ) : Nat := (r.modules.flatMap fun m => m.image.types).length

/-- Follows base types from a name until `base` turns up, a type has no base type, a name cannot be
    resolved or a type is met again. The fuel bounds the steps. -/
def reaches (r : Registry γ) (base : String) : Nat → List String → String → Bool
  | 0, _, _ => false
  | fuel + 1, seen, name =>
    match r.resolve? name with
    | none => false
    | some t =>
      if t.fullName ∈ seen then false
      else match t.baseType with
        | none => false
        | some parent =>
          parent.fullName = base || reaches r base fuel (t.fullName :: seen) parent.fullName

/-- Whether following base types from a name leads to `base`. No type is passed twice, so there are
    at most as many steps as types. -/
def derivesFrom (r : Registry γ) (name base : String) : Bool :=
  r.reaches base (r.typeCount + 1) [] name

/-- The plugins of one module: its concrete types that derive from the plugin base type. -/
def pluginsOf (r : Registry γ) (m : LoadedModule γ) : List (DiscoveredPlugin γ) :=
  (m.image.types.filter fun t => t.isConcrete && r.derivesFrom t.fullName pluginBaseType).map
    fun t => ⟨m.identity, t.fullName, m.code⟩

/-- All plugins, in the order of modules and types. -/
def discover (r : Registry γ) : List (DiscoveredPlugin γ) :=
  (r.modules.filter fun m => !m.isDependency).flatMap r.pluginsOf

/-- Whether the type that a function belongs to has a method of its name. -/
def resolvesFunction (r : Registry γ) (f : FunctionName) : Bool :=
  (r.resolve? f.declaringType).any fun t => t.methods.any fun m => m.name = f.name

end Registry

end PluginHost
