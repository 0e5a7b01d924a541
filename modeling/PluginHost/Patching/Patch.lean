import PluginHost.Symbol
/-!
Patches: requests to run one function before or after another.
-/

namespace PluginHost

/-! Functions of the host and of plugins, named by namespace, type and function. -/

structure FunctionName where
  ns : String
  typeName : String
  name : String
deriving DecidableEq, Inhabited

namespace FunctionName

/-- The constructor of a type. -/
def constructor (ns typeName : String) : FunctionName := ⟨ns, typeName, ".ctor"⟩

/-- The full name of the type that declares the function. -/
def declaringType (f : FunctionName) : String := Symbol.qualify f.ns f.typeName

def display (f : FunctionName) : String := f.declaringType ++ "::" ++ f.name

/-- Reads `Ns.Type::Name`. The first pair of colons ends the type, its last dot the namespace, and
    neither the type nor the function may be without a name. -/
def ofQualified? (qualified : String) : Option FunctionName := do
  let (owner, name) ← Text.cutFirst? [':', ':'] qualified.toList
  let (ns, typeName) := (Text.cutLast? '.' owner).getD ([], owner)
  if typeName.isEmpty || name.isEmpty then none
  else some ⟨String.ofList ns, String.ofList typeName, String.ofList name⟩

end FunctionName

/-- On which side of its target a stub runs. -/
inductive Location where
  | before
  | after
deriving DecidableEq, Inhabited

/-- The priority of a patch that asks for none. -/
def defaultPriority : Int32 := 400

/-- A request to run `stub` on one side of `target`. Either is missing when the plugin could not
    name it; such a patch is refused when it is applied. -/
structure Patch where
  target : Option FunctionName
  stub : Option FunctionName
  location : Location
  priority : Option Int32
deriving DecidableEq, Inhabited

namespace Patch

def before (target stub : FunctionName) : Patch := ⟨some target, some stub, .before, none⟩

def after (target stub : FunctionName) : Patch := ⟨some target, some stub, .after, none⟩

def effectivePriority (p : Patch) : Int32 := p.priority.getD defaultPriority

end Patch

/-- The patches that a plugin declares, in the order in which it declares them. -/
structure PatchList where
  patches : List Patch
deriving DecidableEq, Inhabited

namespace PatchList

def empty : PatchList := ⟨[]⟩

def push (declared : PatchList) (p : Patch) : PatchList := ⟨declared.patches ++ [p]⟩

def before (declared : PatchList) (target stub : FunctionName) : PatchList := declared.push (.before target stub)

def after (declared : PatchList) (target stub : FunctionName) : PatchList := declared.push (.after target stub)

def length (declared : PatchList) : Nat := declared.patches.length

def isEmpty (declared : PatchList) : Bool := declared.patches.isEmpty

@[simp] theorem patches_push (declared : PatchList) (p : Patch) : (declared.push p).patches = declared.patches ++ [p] :=
  rfl

/-- Patches are kept in the order in which they are declared. -/
theorem patches_foldl_push (declared : PatchList) (ps : List Patch) :
    (ps.foldl push declared).patches = declared.patches ++ ps := by
  induction ps generalizing declared with
  | nil => exact (List.append_nil _).symm
  | cons p rest ih => rw [List.foldl_cons, ih, patches_push, List.append_assoc, List.singleton_append]

/-- As many patches are there as were declared, so a list is empty only before the first one. -/
theorem length_foldl_push (declared : PatchList) (ps : List Patch) :
    (ps.foldl push declared).length = declared.length + ps.length := by
  rw [length, patches_foldl_push, List.length_append, length]

theorem isEmpty_iff {declared : PatchList} : declared.isEmpty = true ↔ declared.length = 0 := by
  rw [isEmpty, length, List.isEmpty_iff_length_eq_zero]

end PatchList

/-- The namespaces of the framework and its interception engine, which no plugin may patch. -/
def protectedNamespaces : List String := ["Patchwork", "HarmonyLib", "MonoMod"]

/-- The first protected namespace that a name lies under. -/
def protecting? (name : String) : Option String :=
  protectedNamespaces.find? (Symbol.namespaceContains · name)

theorem protecting?_eq_none_iff {name : String} :
    protecting? name = none ↔ ∀ ns ∈ protectedNamespaces, ¬ ns.toList <+: name.toList := by
  simp only [protecting?, List.find?_eq_none, Symbol.namespaceContains_iff]

end PluginHost
