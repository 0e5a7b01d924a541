import PluginHost.Json.Decoder
import PluginHost.Json.Value
/-!
Records described field by field. One description gives both directions: how a record is written
and how it is read.

A record is written as an object with its fields in declaration order. It is read from an object in
any order, names that are no field being skipped, or from an array that lists its fields.
-/

namespace PluginHost.Json

/-- One field, of type `α`, of a record of type `ρ`. -/
structure Field (ρ α : Type) where
  name : String
  get : ρ → α
  encode : α → Value
  decode : Decoder α
  /-- The values with which the field is left out. -/
  leftOut : α → Bool := fun _ => false
  /-- The value of a field that an object lacks. -/
  absent : Option α := none
  /-- Whether an array may end before this field. -/
  omissible : Bool := false

namespace Field

variable {ρ α : Type}

/-- A field that may be missing and then has a given value. -/
def orElse (f : Field ρ α) (value : α) : Field ρ α :=
  { f with absent := some value, omissible := true }

/-- A field that is not written when it has some value. -/
def omitting (f : Field ρ α) (leftOut : α → Bool) : Field ρ α := { f with leftOut }

def text (name : String) (get : ρ → String) : Field ρ String :=
  { name, get, encode := .str, decode := Decoder.text }

def bool (name : String) (get : ρ → Bool) : Field ρ Bool :=
  { name, get, encode := .bool, decode := Decoder.bool }

def uint8 (name : String) (get : ρ → UInt8) : Field ρ UInt8 :=
  { name, get, encode := fun n => .nat n.toNat, decode := Decoder.uint8 }

def uint16 (name : String) (get : ρ → UInt16) : Field ρ UInt16 :=
  { name, get, encode := fun n => .nat n.toNat, decode := Decoder.uint16 }

def uint32 (name : String) (get : ρ → UInt32) : Field ρ UInt32 :=
  { name, get, encode := fun n => .nat n.toNat, decode := Decoder.uint32 }

def uint64 (name : String) (get : ρ → UInt64) : Field ρ UInt64 :=
  { name, get, encode := fun n => .nat n.toNat, decode := Decoder.uint64 }

def int32 (name : String) (get : ρ → Int32) : Field ρ Int32 :=
  { name, get, encode := fun n => .int n.toInt, decode := Decoder.int32 }

def nameSet (name : String) (get : ρ → NameSet) : Field ρ NameSet :=
  { name, get, encode := fun s => Value.texts s.names, decode := Decoder.nameSet }

def list {item : Type} (name : String) (get : ρ → List item) (encode : item → Value)
    (decode : Decoder item) : Field ρ (List item) :=
  { name, get, encode := fun items => .arr (items.map encode), decode := Decoder.list decode }

/-- A field that holds a value of another kind of data. -/
def of (name : String) (get : ρ → α) (encode : α → Value) (decode : Decoder α) : Field ρ α :=
  { name, get, encode, decode }

/-- A field that may be absent: then it is `null`, or missing from the object. -/
def option {item : Type} (name : String) (get : ρ → Option item) (encode : item → Value)
    (decode : Decoder item) : Field ρ (Option item) :=
  { name, get, encode := Value.ofOption encode, decode := Decoder.nullable decode,
    absent := some none }

end Field

/-- How a `β` is put together from some first fields of a record of type `ρ`. A `Record ρ ρ`
    describes the whole record. -/
inductive Record (ρ : Type) : Type → Type 1 where
  | start {β : Type} (make : β) : Record ρ β
  | field {α β : Type} (before : Record ρ (α → β)) (next : Field ρ α) : Record ρ β

namespace Record

variable {ρ : Type}

/-- Names in declaration order, and whether an array may end before each. -/
def names {β : Type} : Record ρ β → List (String × Bool)
  | .start _ => []
  | .field before next => before.names ++ [(next.name, next.omissible)]

/-- The members that a record is written with. -/
def members {β : Type} (x : ρ) : Record ρ β → List (String × Value)
  | .start _ => []
  | .field before next =>
    before.members x ++
      if next.leftOut (next.get x) then [] else [(next.name, next.encode (next.get x))]

def encode {β : Type} (r : Record ρ β) (x : ρ) : Value := .obj (r.members x)

/-- Reads every field from the part that stands under its name. -/
def build {β : Type} (c : Context) (parts : List (String × Tree)) : Record ρ β → Option β
  | .start make => some make
  | .field before next => do
    let make ← before.build c parts
    let value ← match parts.lookup next.name with
      | some t => next.decode c t
      | none => next.absent
    return make value

/-- The parts of an object that stand under a known name. Every name has to be a text, and no known
    name may stand twice. -/
def partsOfMembers? (known : List (String × Bool)) :
    List (Spelled × Tree) → Option (List (String × Tree))
  | [] => some []
  | (key, t) :: rest => do
    let name ← key.text
    let parts ← partsOfMembers? known rest
    if (known.lookup name).isNone then some parts
    else if (parts.lookup name).isSome then none
    else some ((name, t) :: parts)

/-- The parts of an array, each under the name of its position. -/
def partsOfItems? (surplus : Bool) :
    List (String × Bool) → List Tree → Option (List (String × Tree))
  | [], [] => some []
  | [], _ :: _ => if surplus then some [] else none
  | known, [] => if known.all (·.2) then some [] else none
  | (name, _) :: known, t :: rest =>
    (partsOfItems? surplus known rest).map fun parts => (name, t) :: parts

def decode {β : Type} (r : Record ρ β) : Decoder β
  | c, .obj members => do
    let c ← c.enter
    r.build c (← partsOfMembers? r.names members)
  | c, .arr items => do
    let c ← c.enter
    r.build c (← partsOfItems? c.surplus r.names items)
  | _, _ => none

end Record

end PluginHost.Json
