import PluginHost.Image.TypeRef
import PluginHost.SortedMap
/-!
What a compiled module holds: types with their fields and methods, and the instructions of methods; and the
source lines that these come from.
-/

namespace PluginHost

/-! References to fields and methods, as instructions hold them. -/

structure FieldRef where
  declaringType : TypeRef
  name : String
  fieldType : TypeRef
deriving DecidableEq, Inhabited

structure MethodRef where
  declaringType : TypeRef
  name : String
  returnType : TypeRef
  parameters : List TypeRef
  /-- The types that a generic method is called with. -/
  genericArguments : List TypeRef
deriving DecidableEq, Inhabited

namespace MethodRef

/-- The signature `Return Ns.Type::Name(Parameter,Parameter)`. -/
def signature (m : MethodRef) : String :=
  m.returnType.display ++ " " ++ m.declaringType.fullName ++ "::" ++ m.name ++ "(" ++
    ",".intercalate (m.parameters.map TypeRef.display) ++ ")"

/-- Type and name of the method, as they are cut out of its signature. -/
def plainName (m : MethodRef) : String := Symbol.plainMethodName m.signature

end MethodRef

/-- Metadata attached to a type or method: a type and the types of its constructor arguments. -/
structure Annotation where
  annotationType : TypeRef
  argumentTypes : List TypeRef
deriving DecidableEq, Inhabited

inductive Operand where
  | none
  | integer (value : Int64)
  | text (value : String)
  | field (ref : FieldRef)
  | method (ref : MethodRef)
  | type (ref : TypeRef)
deriving DecidableEq, Inhabited

structure Instruction where
  offset : UInt32
  opcode : String
  operand : Operand
deriving DecidableEq, Inhabited

structure LocalVariable where
  index : UInt16
  variableType : TypeRef
deriving DecidableEq, Inhabited

structure FieldDef where
  name : String
  fieldType : TypeRef
deriving DecidableEq, Inhabited

structure MethodDef where
  /-- The number under which debug symbols describe the method. -/
  token : UInt32
  name : String
  returnType : TypeRef
  parameters : List TypeRef
  annotations : List Annotation
  locals : List LocalVariable
  body : List Instruction
deriving DecidableEq, Inhabited

structure TypeDef where
  ns : String
  name : String
  baseType : Option TypeRef
  isAbstract : Bool
  isInterface : Bool
  annotations : List Annotation
  fields : List FieldDef
  methods : List MethodDef
deriving DecidableEq, Inhabited

namespace TypeDef

def fullName (t : TypeDef) : String := Symbol.qualify t.ns t.name

/-- Whether the type can have instances. -/
def isConcrete (t : TypeDef) : Bool := !t.isAbstract && !t.isInterface

end TypeDef

structure ModuleDef where
  name : String
  types : List TypeDef
deriving DecidableEq, Inhabited

/-- A decoded module stream. -/
structure Image where
  name : String
  modules : List ModuleDef
deriving DecidableEq, Inhabited

namespace Image

/-- All types in the order of the stream. -/
def types (image : Image) : List TypeDef := image.modules.flatMap ModuleDef.types

/-- The first type with a full name. -/
def findType? (image : Image) (full : String) : Option TypeDef :=
  image.types.find? fun t => t.fullName = full

end Image

/-! Debug symbols: which source lines the instructions of a method come from. -/

/-- From `offset` on, the instructions of a method come from these lines. -/
structure SequencePoint where
  offset : UInt32
  document : String
  startLine : UInt32
  endLine : UInt32
deriving DecidableEq, Inhabited

/-- Sequence points by method token. -/
structure Symbols where
  methods : SortedMap UInt32 (List SequencePoint)
deriving DecidableEq, Inhabited

namespace Symbols

/-- The points of a method; a method without an entry has none. -/
def points (s : Symbols) (token : UInt32) : List SequencePoint := (s.methods.get? token).getD []

/-- The point that covers an offset: the last of the leading points at or before the offset, or the
    first point if there is none. -/
def lookup (s : Symbols) (token offset : UInt32) : Option SequencePoint :=
  let points := s.points token
  ((points.takeWhile fun p => p.offset ≤ offset).getLast?).or points.head?

/-- The document of a method's first point and the lines that all its points span. -/
def methodSpan (s : Symbols) (token : UInt32) : Option (String × UInt32 × UInt32) :=
  match s.points token with
  | [] => none
  | first :: rest =>
    some (first.document,
      rest.foldl (fun least p => if p.startLine < least then p.startLine else least) first.startLine,
      rest.foldl (fun most p => if most < p.endLine then p.endLine else most) first.endLine)

/-- The table with the points of every method in ascending order of offset, points of one offset in
    the order given. -/
def normalize (s : Symbols) : Symbols :=
  ⟨s.methods.mapValues fun points => points.mergeSort fun p q => p.offset ≤ q.offset⟩

end Symbols

end PluginHost
