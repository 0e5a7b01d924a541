import PluginHost.Assoc
import PluginHost.Binary64.Basic
import PluginHost.Toml.Datetime
/-!
The values of TOML documents. The entries of a table stand in ascending order of their keys; only
while a document is being read do they stand as it wrote them.
-/

namespace PluginHost.Toml

inductive Value where
  | str (text : String)
  | int (value : Int)
  | float (value : Binary64)
  | bool (value : Bool)
  | datetime (value : Datetime)
  | arr (items : List Value)
  | table (entries : List (String × Value))
deriving Inhabited

/-- Keys with their values, in ascending order. -/
abbrev Table := List (String × Value)

namespace Value

mutual

/-- The value with the entries of all its tables in ascending order. -/
def sorted : Value → Value
  | .arr items => .arr (sortedItems items)
  | .table entries => .table (Assoc.ofList (sortedParts entries))
  | v => v

def sortedItems : List Value → List Value
  | [] => []
  | v :: rest => sorted v :: sortedItems rest

/-- The same entries with their values sorted. -/
def sortedParts : List (String × Value) → List (String × Value)
  | [] => []
  | (key, v) :: rest => (key, sorted v) :: sortedParts rest

end

mutual

/-- Whether two values are the same; two floats are when their bits are. -/
def same : Value → Value → Bool
  | .str a, .str b => a == b
  | .int a, .int b => a == b
  | .float a, .float b => a == b
  | .bool a, .bool b => a == b
  | .datetime a, .datetime b => a == b
  | .arr as, .arr bs => sameItems as bs
  | .table as, .table bs => sameEntries as bs
  | _, _ => false

def sameItems : List Value → List Value → Bool
  | [], [] => true
  | a :: as, b :: bs => same a b && sameItems as bs
  | _, _ => false

def sameEntries : List (String × Value) → List (String × Value) → Bool
  | [], [] => true
  | (k, a) :: as, (l, b) :: bs => k == l && same a b && sameEntries as bs
  | _, _ => false

end

mutual

theorem same_iff : ∀ v w : Value, same v w = true ↔ v = w
  | .str _, w => by cases w <;> simp [same]
  | .int _, w => by cases w <;> simp [same]
  | .float _, w => by cases w <;> simp [same]
  | .bool _, w => by cases w <;> simp [same]
  | .datetime _, w => by cases w <;> simp [same]
  | .arr items, .arr items' => by simp [same, sameItems_iff items items']
  | .arr _, .str _ | .arr _, .int _ | .arr _, .float _ | .arr _, .bool _ | .arr _, .datetime _
  | .arr _, .table _ => by simp [same]
  | .table entries, .table entries' => by simp [same, sameEntries_iff entries entries']
  | .table _, .str _ | .table _, .int _ | .table _, .float _ | .table _, .bool _ | .table _, .datetime _
  | .table _, .arr _ => by simp [same]

theorem sameItems_iff : ∀ vs ws : List Value, sameItems vs ws = true ↔ vs = ws
  | [], [] => by simp [sameItems]
  | [], _ :: _ => by simp [sameItems]
  | _ :: _, [] => by simp [sameItems]
  | v :: rest, w :: rest' => by simp [sameItems, same_iff v w, sameItems_iff rest rest']

theorem sameEntries_iff : ∀ vs ws : List (String × Value), sameEntries vs ws = true ↔ vs = ws
  | [], [] => by simp [sameEntries]
  | [], _ :: _ => by simp [sameEntries]
  | _ :: _, [] => by simp [sameEntries]
  | (_, v) :: rest, (_, w) :: rest' => by
    simp [sameEntries, same_iff v w, sameEntries_iff rest rest', and_assoc]

end

instance : DecidableEq Value := fun v w => decidable_of_iff _ (same_iff v w)

end Value

def Table.sorted (t : Table) : Table := Assoc.ofList (Value.sortedParts t)

end PluginHost.Toml
