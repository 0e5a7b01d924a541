import PluginHost.Json.Value
import PluginHost.NameSet
import PluginHost.SortedMap
/-!
Reading typed data out of a tree.

A decoder uses a part of the tree or skips it. What it uses must fit and may nest only as deep as
the context allows; what it skips may be anything.
-/

namespace PluginHost.Json

/-- What a decoder goes by besides the tree. -/
structure Context where
  /-- How many more arrays and objects may be entered. -/
  depth : Nat
  /-- Whether an array that stands for a record may have more items than the record has fields. -/
  surplus : Bool

/-- Reading JSON text: 127 levels, and no surplus. -/
def Context.json : Context := ⟨127, false⟩

/-- The context inside an array or object. -/
def Context.enter : Context → Option Context
  | ⟨0, _⟩ => none
  | ⟨depth + 1, surplus⟩ => some ⟨depth, surplus⟩

abbrev Decoder (α : Type) := Context → Tree → Option α

namespace Decoder

def bool : Decoder Bool
  | _, .bool b => some b
  | _, _ => none

def text : Decoder String
  | _, .str s => s.text
  | _, _ => none

/-- An integer that satisfies `low ≤ n < high`. -/
def intIn (low high : Int) : Decoder Int
  | _, .num n => n.int?.filter fun i => low ≤ i && i < high
  | _, _ => none

def uint8 : Decoder UInt8 := fun c t => (intIn 0 UInt8.size c t).map fun i => UInt8.ofNat i.toNat
def uint16 : Decoder UInt16 := fun c t => (intIn 0 UInt16.size c t).map fun i => UInt16.ofNat i.toNat
def uint32 : Decoder UInt32 := fun c t => (intIn 0 UInt32.size c t).map fun i => UInt32.ofNat i.toNat
def uint64 : Decoder UInt64 := fun c t => (intIn 0 UInt64.size c t).map fun i => UInt64.ofNat i.toNat
def int32 : Decoder Int32 := fun c t => (intIn (-0x80000000) 0x80000000 c t).map Int32.ofInt
def int64 : Decoder Int64 := fun c t =>
  (intIn (-0x8000000000000000) 0x8000000000000000 c t).map Int64.ofInt

/-- Absence is written `null`. -/
def nullable {α : Type} (item : Decoder α) : Decoder (Option α)
  | _, .null => some none
  | c, t => (item c t).map some

def list {α : Type} (item : Decoder α) : Decoder (List α)
  | c, .arr items => c.enter.bind fun c => items.mapM (item c)
  | _, _ => none

/-- A set of names is written as a list in any order, with or without repetitions. -/
def nameSet : Decoder NameSet := fun c t => (list text c t).map NameSet.ofList

/-- The number that the name of a member writes without escapes, signs or leading zeros. -/
def keyUInt32? (name : Spelled) : Option UInt32 := do
  let text ← name.text
  let digits := text.toList
  if !name.plain || digits.isEmpty || !digits.all Char.isDigit ||
      (digits.length > 1 && digits.head? == some '0') then none
  else
    let n := Nat.ofDigitChars 10 digits 0
    if n < UInt32.size then some (UInt32.ofNat n) else none

/-- Values under numbers. Of several values under one number the last stays. -/
def numbered {α : Type} (item : Decoder α) : Decoder (SortedMap UInt32 α)
  | c, .obj members => c.enter.bind fun c =>
    (members.mapM fun (m : Spelled × Tree) => do
      return (← keyUInt32? m.1, ← item c m.2)).map SortedMap.ofList
  | _, _ => none

/-- One of several names, as a text or as the only member of an object whose value is `null`. -/
def name {α : Type} (cases : List (String × α)) : Decoder α
  | _, .str s => s.text.bind (cases.lookup ·)
  | c, .obj [(key, .null)] => c.enter.bind fun _ => key.text.bind (cases.lookup ·)
  | _, _ => none

mutual

/-- Whether a part can be kept until it is known what it is for: every text in it is a text, every
    number is finite, and it nests no deeper than allowed. -/
def keepable : Nat → Tree → Bool
  | _, .null => true
  | _, .bool _ => true
  | _, .num n => n.isFinite
  | _, .str s => s.text.isSome
  | 0, .arr _ => false
  | 0, .obj _ => false
  | depth + 1, .arr items => keepableItems depth items
  | depth + 1, .obj members => keepableMembers depth members

def keepableItems : Nat → List Tree → Bool
  | _, [] => true
  | depth, t :: rest => keepable depth t && keepableItems depth rest

def keepableMembers : Nat → List (Spelled × Tree) → Bool
  | _, [] => true
  | depth, (name, t) :: rest =>
    name.text.isSome && keepable depth t && keepableMembers depth rest

end

/-- What comes with one tag. -/
inductive Case (α : Type) where
  | alone (value : α)
  | holds (content : Decoder α)

/-- The value for a case, from its content if there is one. -/
def Case.value? {α : Type} (case : Case α) (c : Context) : Option Tree → Option α
  | none => match case with
    | .alone a => some a
    | .holds _ => none
  | some t => match case, t with
    | .alone a, .null => some a
    | .alone _, _ => none
    | .holds content, t => content c t

/-- The values under one name in an object all of whose names are texts. -/
def membersNamed (name : String) (members : List (Spelled × Tree)) : List Tree :=
  members.filterMap fun m => if m.1.text = some name then some m.2 else none

/-- A tag and its content, as an object with these two members in either order and any others, or
    as an array of the two. Content that stands before its tag has to be kept first. -/
def tagged {α : Type} (tag content : String) (cases : List (String × Case α)) : Decoder α
  | c, .obj members => do
    let c ← c.enter
    if !members.all (·.1.text.isSome) then none
    else
      let case ← match membersNamed tag members with
        | [t] => name cases c t
        | _ => none
      match membersNamed content members with
      | [] => case.value? c none
      | [t] =>
        let first := members.find? fun m => m.1.text = some tag || m.1.text = some content
        if first.any (·.1.text = some content) && !keepable c.depth t then none
        else case.value? c (some t)
      | _ => none
  | c, .arr [t, held] => do
    let c ← c.enter
    let case ← name cases c t
    case.value? c (some held)
  | _, _ => none

end Decoder

end PluginHost.Json
