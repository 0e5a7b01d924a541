import PluginHost.Json.Decoder
import PluginHost.Json.Value
import PluginHost.Text.Numeral
import PluginHost.Toml.Value
/-!
TOML values as trees, for the decoders that records share between formats.

A table whose first entry has the key that is set aside for dates is read as the date that this entry writes. No
other entry of it counts.
-/

namespace PluginHost.Toml

open Json (Tree Spelled Number)

/-- The member name under which a date or time stands as text. -/
def datetimeKey : String := "$__toml_private_datetime"

def spelled (text : String) : Spelled := ⟨some text, true⟩

def ofInt (n : Int) : Number := ⟨n < 0, Text.ofNat n.natAbs, none, none⟩

/-- A number that is no integer; its digits are of no account to any decoder. -/
def ofFloat (x : Binary64) : Number := ⟨x.isNegative, ['0'], some ['0'], none⟩

mutual

def Value.tree : Value → Tree
  | .str text => .str (spelled text)
  | .int n => .num (ofInt n)
  | .float x => .num (ofFloat x)
  | .bool b => .bool b
  | .datetime d => .obj [(spelled datetimeKey, .str (spelled (String.ofList d.text)))]
  | .arr items => .arr (treeItems items)
  | .table entries => .obj (treeMembers entries)

def treeItems : List Value → List Tree
  | [] => []
  | v :: rest => v.tree :: treeItems rest

def treeMembers : List (String × Value) → List (Spelled × Tree)
  | [] => []
  | (key, v) :: rest => (spelled key, v.tree) :: treeMembers rest

end

/-- The context of a document. Documents nest less deep than this, and arrays that stand for records
    may have surplus items. -/
def context : Json.Context := ⟨1000, true⟩

mutual

/-- The value in the JSON data model: a date or time becomes an object with its text, and what is no
    finite number becomes `null` when it is written. -/
def Value.json : Value → Json.Value
  | .str text => .str text
  | .int n => .int n
  | .float x => .float x
  | .bool b => .bool b
  | .datetime d => .obj [(datetimeKey, .str (String.ofList d.text))]
  | .arr items => .arr (jsonItems items)
  | .table entries => .obj (jsonMembers entries)

def jsonItems : List Value → List Json.Value
  | [] => []
  | v :: rest => v.json :: jsonItems rest

def jsonMembers : List (String × Value) → List (String × Json.Value)
  | [] => []
  | (key, v) :: rest => (key, v.json) :: jsonMembers rest

end

/-! Dates that stand as tables. -/

/-- The first entry of a table, if it is set aside for a date. -/
def dateEntry? : List (String × Value) → Option Value
  | (key, v) :: _ => if key = datetimeKey then some v else none
  | [] => none

mutual

/-- The value that is meant by one as it was written, its entries in ascending order. There is none
    if a table that should stand for a date does not. -/
def Value.dated? : Value → Option Value
  | .arr items => (datedItems? items).map .arr
  | .table entries =>
    match dateEntry? entries with
    | some (.str text) => (Datetime.ofText? text.toList).map .datetime
    | some _ => none
    | none => (datedEntries? entries).map fun entries => .table (Assoc.ofList entries)
  | v => some v

def datedItems? : List Value → Option (List Value)
  | [] => some []
  | v :: rest => do return (← v.dated?) :: (← datedItems? rest)

def datedEntries? : List (String × Value) → Option (List (String × Value))
  | [] => some []
  | (key, v) :: rest => do return (key, ← v.dated?) :: (← datedEntries? rest)

end

end PluginHost.Toml
