import PluginHost.Image.Artifact
import PluginHost.Policy.Policy
/-!
Analysis: which violations of a tier a module commits.

Every annotation, local variable and instruction operand is looked at. A compiled module holds full
names only, so renaming in the source hides nothing.
-/

namespace PluginHost

/-! Violations: names that a tier restricts and a module refers to. -/

inductive ViolationReason where
  | restrictedType
  | restrictedMethod
deriving DecidableEq, Inhabited

def ViolationReason.display : ViolationReason → String
  | .restrictedType => "references a restricted type or namespace"
  | .restrictedMethod => "invokes a restricted method"

structure Violation where
  /-- Where in the module the name stands, with source lines as far as they are known. -/
  location : String
  offendingName : String
  reason : ViolationReason
  isGenericArgument : Bool
deriving DecidableEq, Inhabited

def Violation.display (v : Violation) : String :=
  v.location ++ ": " ++ v.offendingName ++ " " ++ v.reason.display ++
    if v.isGenericArgument then " (as generic argument)" else ""

/-- What testing one module against one tier found. -/
structure TierResult where
  tier : UInt8
  tested : Bool
  passed : Bool
  violations : List Violation
deriving DecidableEq, Inhabited

namespace TierResult

/-- The result for a tier that nothing was tested against. It never counts as passed. -/
def untested (rank : UInt8) : TierResult := ⟨rank, false, false, []⟩

/-- The result of a test that found the given violations. -/
def ofViolations (rank : UInt8) (violations : List Violation) : TierResult :=
  ⟨rank, true, violations.isEmpty, violations⟩

/-- The violations without repetitions. -/
def distinct (r : TierResult) : List Violation := r.violations.eraseDups

end TierResult

namespace Analysis

variable (tier : Tier)

/-- The violation of one type reference, if it is restricted. -/
def typeViolation (location : String) (isGenericArgument : Bool) (t : TypeRef) : Option Violation :=
  if (tier.classify t.fullName).isRestricted then
    some ⟨location, t.fullName, .restrictedType, isGenericArgument⟩
  else none

/-- The violations of a type and of what it is closed over. -/
def typeViolations (location : String) (root : TypeRef) : List Violation :=
  root.flatten.filterMap fun (t, isRoot) => typeViolation tier location (!isRoot) t

/-- The violations of a type that is itself a generic argument. -/
def argumentViolations (location : String) (root : TypeRef) : List Violation :=
  root.flatten.filterMap fun (t, _) => typeViolation tier location true t

def annotationViolations (location : String) (a : Annotation) : List Violation :=
  typeViolations tier location a.annotationType ++
    a.argumentTypes.flatMap (typeViolations tier location)

/-- The violation of a call, if the method is restricted. -/
def callViolations (location : String) (m : MethodRef) : List Violation :=
  if tier.isMethodRestricted m.plainName then
    [⟨location, m.plainName, .restrictedMethod, false⟩]
  else []

def operandViolations (location : String) : Operand → List Violation
  | .field f =>
    typeViolations tier location f.declaringType ++ typeViolations tier location f.fieldType
  | .method m =>
    typeViolations tier location m.declaringType ++
      m.genericArguments.flatMap (argumentViolations tier location) ++
      callViolations tier location m
  | .type t => typeViolations tier location t
  | .none | .integer _ | .text _ => []

/-- A document with the lines from `first` to `last`. -/
def linesText (document : String) (first last : UInt32) : String :=
  " (" ++ document ++ ":L" ++ Fault.number first.toNat ++ "-L" ++ Fault.number last.toNat ++ ")"

/-- Where a method stands: its name and, if known, the lines it spans. -/
def methodLocation (symbols : Option Symbols) (member : String) (token : UInt32) : String :=
  match symbols.bind (·.methodSpan token) with
  | some (document, first, last) => member ++ linesText document first last
  | none => member

/-- Where an instruction stands: its method, its offset and, if known, its lines. -/
def instructionLocation (symbols : Option Symbols) (member : String) (token offset : UInt32) :
    String :=
  let position := member ++ " IL_" ++ String.ofList (Text.hexPadded 4 offset.toNat)
  match symbols.bind (·.lookup token offset) with
  | some point => position ++ linesText point.document point.startLine point.endLine
  | none => position

def methodViolations (symbols : Option Symbols) (owner : String) (m : MethodDef) :
    List Violation :=
  let member := owner ++ "::" ++ m.name
  let location := methodLocation symbols member m.token
  m.annotations.flatMap (annotationViolations tier location) ++
    m.locals.flatMap (fun l =>
      typeViolations tier (location ++ " local #" ++ Fault.number l.index.toNat) l.variableType) ++
    m.body.flatMap fun i =>
      operandViolations tier (instructionLocation symbols member m.token i.offset) i.operand

def definitionViolations (symbols : Option Symbols) (t : TypeDef) : List Violation :=
  t.annotations.flatMap (annotationViolations tier t.fullName) ++
    t.methods.flatMap (methodViolations tier symbols t.fullName)

/-- All violations of an image, in the order of its types. -/
def violations (image : Image) (symbols : Option Symbols) : List Violation :=
  image.types.flatMap (definitionViolations tier symbols)

/-- The test of a decoded module. -/
def ofImage (image : Image) (symbols : Option Symbols) : TierResult :=
  .ofViolations tier.rank (violations tier image symbols)

/-- The test of an artifact, which is decoded first. -/
def ofArtifact (artifact : Artifact) : Except Fault TierResult := do
  let image ← artifact.image
  let symbols ← artifact.debugSymbols
  return ofImage tier image symbols

end Analysis

end PluginHost
