import PluginHost.Text.Cut
/-!
Names of types, namespaces and methods as text.

A type is named by its namespace and its simple name with a dot between; a method by its type, two
colons and its own name. Array types carry their brackets at the end of the name.
-/

namespace PluginHost.Symbol

open Text

/-- The full name of a type; a type outside any namespace has only its simple name. -/
def qualify (ns name : String) : String :=
  if ns.isEmpty then name else ns ++ "." ++ name

/-- Namespace and simple name of a full name, which is cut at its last dot. -/
def unqualify (full : String) : String × String :=
  match cutLast? '.' full.toList with
  | some (ns, name) => (String.ofList ns, String.ofList name)
  | none => ("", full)

/-- Whether a name lies under a namespace. The test is on the text alone: `Foo` contains `Foo.Bar`
    and `FooBar` too. -/
def namespaceContains (outer inner : String) : Bool := outer.toList.isPrefixOf inner.toList

theorem namespaceContains_iff {outer inner : String} :
    namespaceContains outer inner = true ↔ outer.toList <+: inner.toList := by
  rw [namespaceContains, List.isPrefixOf_iff_prefix]

/-- The text before a final `[`, commas and `]`. -/
def dropArrayGroup? (s : List Char) : Option (List Char) :=
  match cutLast? '[' s with
  | some (before, after) =>
    if after.getLast? = some ']' && after.dropLast.all (· = ',') then some before else none
  | none => none

theorem length_lt_of_dropArrayGroup? {s before : List Char}
    (hdrop : dropArrayGroup? s = some before) : before.length < s.length := by
  unfold dropArrayGroup? at hdrop
  split at hdrop
  · next b a hcut =>
    split at hdrop
    · simp only [Option.some.injEq] at hdrop
      subst hdrop
      rw [eq_append_of_cutLast? hcut]
      simp only [List.length_append, List.length_cons]
      omega
    · simp at hdrop
  · simp at hdrop

/-- The text without all final array groups. -/
def dropArrayGroups (s : List Char) : List Char :=
  match _hdrop : dropArrayGroup? s with
  | some before => dropArrayGroups before
  | none => s
termination_by s.length
decreasing_by exact length_lt_of_dropArrayGroup? _hdrop

/-- The element type of a possibly nested array type. -/
def stripArraySuffix (name : String) : String :=
  String.ofList (dropArrayGroups (trimEnd name.toList))

/-- What follows the last space of a text. -/
def afterLastSpace (s : List Char) : List Char :=
  match cutLast? ' ' s with
  | some (_, after) => after
  | none => s

/-- The method that a signature declares: what stands before the parameters, without the return
    type. The return type ends at the last space before the colons. -/
def declaredMethod (signature : List Char) : List Char :=
  let bare := signature.takeWhile (· ≠ '(')
  trim <| match cutFirst? [':', ':'] bare with
    | some (owner, member) => afterLastSpace owner ++ ':' :: ':' :: member
    | none => afterLastSpace bare

/-- The plain name, type and method, in a signature `Return Ns.Type::Name(Parameters)`. -/
def plainMethodName (signature : String) : String :=
  String.ofList (declaredMethod signature.toList)

end PluginHost.Symbol
