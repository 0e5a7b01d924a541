import PluginHost.Image.Module
import PluginHost.Json.Record
import PluginHost.Text.Numeral
/-!
The written form of modules and symbol tables.

Lists that may be left out when reading are still written when empty, generic arguments excepted.
-/

namespace PluginHost

open Json

namespace TypeRef

mutual

def encode : TypeRef → Value
  | ⟨ns, name, args⟩ =>
    .obj ([("namespace", .str ns), ("name", .str name)] ++
      if args.isEmpty then [] else [("generic_arguments", .arr (encodeAll args))])

def encodeAll : List TypeRef → List Value
  | [] => []
  | t :: rest => encode t :: encodeAll rest

end

/-- The record of a reference, with a given reader for generic arguments. -/
def record (decodeArgument : Decoder TypeRef) : Record TypeRef TypeRef :=
  Record.start TypeRef.mk
    |>.field (.text "namespace" ns)
    |>.field (.text "name" TypeRef.name)
    |>.field (((Field.list "generic_arguments" genericArguments encode decodeArgument).orElse
      []).omitting List.isEmpty)

/-- Reads a reference whose generic arguments nest fewer than `levels` deep. -/
def decodeWithin : Nat → Decoder TypeRef
  | 0 => fun _ _ => none
  | levels + 1 => (record (decodeWithin levels)).decode

/-- Every level of generic arguments enters an object, so the depth left bounds the levels. -/
def decode : Decoder TypeRef := fun c t => decodeWithin (c.depth + 1) c t

/-- A field that lists types and may be left out. -/
def listField {ρ : Type} (name : String) (get : ρ → List TypeRef) : Field ρ (List TypeRef) :=
  (Field.list name get encode decode).orElse []

end TypeRef

def Annotation.record : Record Annotation Annotation :=
  Record.start Annotation.mk
    |>.field (.of "annotation_type" Annotation.annotationType TypeRef.encode TypeRef.decode)
    |>.field (TypeRef.listField "argument_types" Annotation.argumentTypes)

def FieldRef.record : Record FieldRef FieldRef :=
  Record.start FieldRef.mk
    |>.field (.of "declaring_type" FieldRef.declaringType TypeRef.encode TypeRef.decode)
    |>.field (.text "name" FieldRef.name)
    |>.field (.of "field_type" FieldRef.fieldType TypeRef.encode TypeRef.decode)

def MethodRef.record : Record MethodRef MethodRef :=
  Record.start MethodRef.mk
    |>.field (.of "declaring_type" MethodRef.declaringType TypeRef.encode TypeRef.decode)
    |>.field (.text "name" MethodRef.name)
    |>.field (.of "return_type" MethodRef.returnType TypeRef.encode TypeRef.decode)
    |>.field (TypeRef.listField "parameters" MethodRef.parameters)
    |>.field
      ((TypeRef.listField "generic_arguments" MethodRef.genericArguments).omitting List.isEmpty)

/-- A tag with its content. -/
def Json.Value.taggedWith (tag content kind : String) (held : Value) : Value :=
  .obj [(tag, .str kind), (content, held)]

def Operand.encode : Operand → Value
  | .none => .obj [("kind", .str "none")]
  | .integer value => .taggedWith "kind" "value" "integer" (.int value.toInt)
  | .text value => .taggedWith "kind" "value" "string" (.str value)
  | .field ref => .taggedWith "kind" "value" "field" (FieldRef.record.encode ref)
  | .method ref => .taggedWith "kind" "value" "method" (MethodRef.record.encode ref)
  | .type ref => .taggedWith "kind" "value" "type" ref.encode

def Operand.decode : Decoder Operand :=
  Decoder.tagged "kind" "value"
    [("none", .alone .none),
     ("integer", .holds fun c t => (Decoder.int64 c t).map .integer),
     ("string", .holds fun c t => (Decoder.text c t).map .text),
     ("field", .holds fun c t => (FieldRef.record.decode c t).map .field),
     ("method", .holds fun c t => (MethodRef.record.decode c t).map .method),
     ("type", .holds fun c t => (TypeRef.decode c t).map .type)]

def Instruction.record : Record Instruction Instruction :=
  Record.start Instruction.mk
    |>.field (.uint32 "offset" Instruction.offset)
    |>.field (.text "opcode" Instruction.opcode)
    |>.field ((Field.of "operand" Instruction.operand Operand.encode Operand.decode).orElse .none)

def LocalVariable.record : Record LocalVariable LocalVariable :=
  Record.start LocalVariable.mk
    |>.field (.uint16 "index" LocalVariable.index)
    |>.field (.of "variable_type" LocalVariable.variableType TypeRef.encode TypeRef.decode)

def FieldDef.record : Record FieldDef FieldDef :=
  Record.start FieldDef.mk
    |>.field (.text "name" FieldDef.name)
    |>.field (.of "field_type" FieldDef.fieldType TypeRef.encode TypeRef.decode)

/-- A field that lists records and may be left out. -/
def Json.Field.records {ρ item : Type} (name : String) (get : ρ → List item)
    (r : Record item item) : Field ρ (List item) :=
  (Field.list name get r.encode r.decode).orElse []

def MethodDef.record : Record MethodDef MethodDef :=
  Record.start MethodDef.mk
    |>.field (.uint32 "token" MethodDef.token)
    |>.field (.text "name" MethodDef.name)
    |>.field (.of "return_type" MethodDef.returnType TypeRef.encode TypeRef.decode)
    |>.field (TypeRef.listField "parameters" MethodDef.parameters)
    |>.field (.records "annotations" MethodDef.annotations Annotation.record)
    |>.field (.records "locals" MethodDef.locals LocalVariable.record)
    |>.field (.records "body" MethodDef.body Instruction.record)

def TypeDef.record : Record TypeDef TypeDef :=
  Record.start TypeDef.mk
    |>.field (.text "namespace" TypeDef.ns)
    |>.field (.text "name" TypeDef.name)
    |>.field ((Field.option "base_type" TypeDef.baseType TypeRef.encode TypeRef.decode).orElse none)
    |>.field ((Field.bool "is_abstract" TypeDef.isAbstract).orElse false)
    |>.field ((Field.bool "is_interface" TypeDef.isInterface).orElse false)
    |>.field (.records "annotations" TypeDef.annotations Annotation.record)
    |>.field (.records "fields" TypeDef.fields FieldDef.record)
    |>.field (.records "methods" TypeDef.methods MethodDef.record)

def ModuleDef.record : Record ModuleDef ModuleDef :=
  Record.start ModuleDef.mk
    |>.field (.text "name" ModuleDef.name)
    |>.field (.records "types" ModuleDef.types TypeDef.record)

def Image.record : Record Image Image :=
  Record.start Image.mk
    |>.field (.text "name" Image.name)
    |>.field (.records "modules" Image.modules ModuleDef.record)

def SequencePoint.record : Record SequencePoint SequencePoint :=
  Record.start SequencePoint.mk
    |>.field (.uint32 "offset" SequencePoint.offset)
    |>.field (.text "document" SequencePoint.document)
    |>.field (.uint32 "start_line" SequencePoint.startLine)
    |>.field (.uint32 "end_line" SequencePoint.endLine)

/-- Point lists under their tokens, in ascending order of the tokens as numbers. -/
def Symbols.encodeMethods (methods : SortedMap UInt32 (List SequencePoint)) : Value :=
  .obj (methods.entries.map fun e =>
    (String.ofList (Text.ofNat e.1.toNat), .arr (e.2.map SequencePoint.record.encode)))

def Symbols.record : Record Symbols Symbols :=
  Record.start Symbols.mk
    |>.field (.of "methods" Symbols.methods Symbols.encodeMethods
      (Decoder.numbered (Decoder.list SequencePoint.record.decode)))

end PluginHost
