import PluginHost.Json.Access
import PluginHost.Json.Value
import PluginHost.Text.Numeral
import PluginHost.Toml.Value
/-!
TOML values as JSON without loss: a float stands as its bits in hexadecimal, a date or time as its
text, each in an object of its own.
-/

namespace PluginHost.Toml

open Json (Tree Spelled)

/-- The bits of a float in sixteen digits. One text stands for every NaN. -/
def bitText (x : Binary64) : String :=
  if x.isNaN then "nan" else String.ofList (Text.hexFixed 16 x.bits.toNat)

def ofBitText? (text : String) : Option Binary64 :=
  if text = "nan" then some (.nan false)
  else (Text.hexNat? text.toList).map fun n => ⟨UInt64.ofNat n⟩

mutual

def Value.exact : Value → Json.Value
  | .str text => .str text
  | .int n => .int n
  | .float x => .obj [("$float", .str (bitText x))]
  | .bool b => .bool b
  | .datetime d => .obj [("$datetime", .str (String.ofList d.text))]
  | .arr items => .arr (exactItems items)
  | .table entries => .obj (exactMembers entries)

def exactItems : List Value → List Json.Value
  | [] => []
  | v :: rest => v.exact :: exactItems rest

def exactMembers : List (String × Value) → List (String × Json.Value)
  | [] => []
  | (key, v) :: rest => (key, v.exact) :: exactMembers rest

end

/-- The float or the date that an object with one member stands for. -/
def ofMarked? (t : Tree) : Option Value :=
  match t.member? "$float", t.member? "$datetime" with
  | some bits, _ => (ofBitText? bits.text).map .float
  | none, some text => (Datetime.ofText? text.text.toList).map .datetime
  | none, none => none

mutual

/-- The value that a tree stands for, if it stands for one. -/
def Value.ofExact? : Tree → Option Value
  | .null => none
  | .bool b => some (.bool b)
  | .num n => n.int?.map .int
  | .str s => s.text.map .str
  | .arr items => (ofExactItems? items).map .arr
  | .obj members =>
    match ofMarked? (.obj members) with
    | some v => some v
    | none => (ofExactMembers? members).map fun entries => .table (Assoc.ofList entries)

def ofExactItems? : List Tree → Option (List Value)
  | [] => some []
  | t :: rest => do return (← Value.ofExact? t) :: (← ofExactItems? rest)

def ofExactMembers? : List (Spelled × Tree) → Option (List (String × Value))
  | [] => some []
  | (key, t) :: rest => do
    return (← key.text, ← Value.ofExact? t) :: (← ofExactMembers? rest)

end

/-- The table that a tree stands for, empty if it stands for none. -/
def Table.ofExact (t : Tree) : Table :=
  match Value.ofExact? t with
  | some (.table entries) => entries
  | _ => []

def Table.exact (t : Table) : Json.Value := (Value.table t).exact

end PluginHost.Toml
