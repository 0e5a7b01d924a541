import PluginHost.Symbol
/-!
References to types, open or closed over generic arguments.
-/

namespace PluginHost

/-- A reference to a type by name, with the types its generic parameters stand for. -/
structure TypeRef where
  ns : String
  /-- The simple name, array brackets included. -/
  name : String
  genericArguments : List TypeRef

namespace TypeRef

instance : Inhabited TypeRef := ⟨"", "", []⟩

mutual

/-- Whether two references are the same in every part. -/
def same : TypeRef → TypeRef → Bool
  | ⟨ns, name, args⟩, ⟨ns', name', args'⟩ => ns == ns' && name == name' && sameAll args args'

def sameAll : List TypeRef → List TypeRef → Bool
  | [], [] => true
  | t :: rest, t' :: rest' => same t t' && sameAll rest rest'
  | _, _ => false

end

mutual

theorem same_iff : ∀ t u : TypeRef, same t u = true ↔ t = u
  | ⟨ns, name, args⟩, ⟨ns', name', args'⟩ => by
    simp [same, sameAll_iff args args', and_assoc]

theorem sameAll_iff : ∀ ts us : List TypeRef, sameAll ts us = true ↔ ts = us
  | [], [] => by simp [sameAll]
  | [], _ :: _ => by simp [sameAll]
  | _ :: _, [] => by simp [sameAll]
  | t :: rest, u :: rest' => by
    simp [sameAll, same_iff t u, sameAll_iff rest rest']

end

instance : DecidableEq TypeRef := fun t u => decidable_of_iff _ (same_iff t u)

/-- A type without generic arguments. -/
def named (ns name : String) : TypeRef := ⟨ns, name, []⟩

/-- The type with a full name, which is cut at its last dot. -/
def ofFullName (full : String) : TypeRef :=
  let (ns, name) := Symbol.unqualify full
  named ns name

/-- The one-dimensional array of an element type. -/
def arrayOf (element : TypeRef) : TypeRef := { element with name := element.name ++ "[]" }

/-- Namespace and name without generic arguments. -/
def fullName (t : TypeRef) : String := Symbol.qualify t.ns t.name

mutual

/-- The full name followed by the generic arguments in angle brackets, if there are any. -/
def display : TypeRef → String
  | ⟨ns, name, []⟩ => Symbol.qualify ns name
  | ⟨ns, name, arg :: rest⟩ =>
    Symbol.qualify ns name ++ "<" ++ arg.display ++ displayMore rest ++ ">"

def displayMore : List TypeRef → String
  | [] => ""
  | arg :: rest => "," ++ arg.display ++ displayMore rest

end

mutual

/-- The number of references in a reference, itself included. -/
def nodes : TypeRef → Nat
  | ⟨_, _, args⟩ => 1 + nodesAll args

def nodesAll : List TypeRef → Nat
  | [] => 0
  | t :: rest => nodes t + nodesAll rest

end

theorem nodes_eq (t : TypeRef) : t.nodes = 1 + nodesAll t.genericArguments := by
  cases t; simp [nodes]

theorem nodesAll_append (ts us : List TypeRef) : nodesAll (ts ++ us) = nodesAll ts + nodesAll us := by
  induction ts with
  | nil => simp [nodesAll]
  | cons t rest ih => simp [nodesAll, ih]; omega

/-- Visits pending references in order, each before its generic arguments. A reference that was
    seen before is passed over together with what it holds. -/
def visit (seen : List TypeRef) : List TypeRef → List TypeRef
  | [] => []
  | t :: pending =>
    if t ∈ seen then visit seen pending
    else t :: visit (t :: seen) (t.genericArguments ++ pending)
termination_by pending => nodesAll pending
decreasing_by
  · simp only [nodesAll, nodes_eq]; omega
  · simp only [nodesAll, nodesAll_append, nodes_eq t]; omega

/-- A type and every type reachable through generic arguments, depth first and each once. The flag
    marks the type itself. -/
def flatten (root : TypeRef) : List (TypeRef × Bool) :=
  match visit [] [root] with
  | [] => []
  | first :: others => (first, true) :: others.map fun t => (t, false)

end TypeRef

end PluginHost
