import PluginHost.Assoc
import PluginHost.Json.Value
/-!
Looking into trees, and reading a value of any kind. What is not there is `null`, and `null` has no
items and no members, is zero as a number and empty as a text.
-/

namespace PluginHost.Json

namespace Tree

def isNull : Tree → Bool
  | null => true
  | _ => false

def isText : Tree → Bool
  | str _ => true
  | _ => false

/-- The members whose names are texts. -/
def members : Tree → List (String × Tree)
  | obj ms => ms.filterMap fun m => m.1.text.map fun name => (name, m.2)
  | _ => []

def items : Tree → List Tree
  | arr ts => ts
  | _ => []

def text? : Tree → Option String
  | str s => s.text
  | _ => none

def int? : Tree → Option Int
  | num n => n.int?
  | _ => none

def text (t : Tree) : String := t.text?.getD ""

def int (t : Tree) : Int := t.int?.getD 0

def nat (t : Tree) : Nat := t.int.toNat

def truth : Tree → Bool
  | bool b => b
  | _ => false

def texts (t : Tree) : List String := t.items.map text

def item (t : Tree) (i : Nat) : Tree := t.items.getD i null

def member? (t : Tree) (name : String) : Option Tree := t.members.lookup name

/-- The member of a name. -/
def member (t : Tree) (name : String) : Tree := (t.member? name).getD null

end Tree

/-! Values of any kind. -/

/-- The value of a number: an integer if it is written as one and fits into 64 bits, signed or
    unsigned, else the nearest number of 64 bits, which has to be finite. -/
def Number.value? (n : Number) : Option Value :=
  let float := fun (_ : Unit) => if n.isFinite then some (Value.float n.toBinary64) else none
  match n.int? with
  | some i => if -0x8000000000000000 ≤ i ∧ i < UInt64.size then some (.int i) else float ()
  | none => float ()

mutual

/-- The value that a tree spells, if every text and number in it has one. Of several members with
    one name the last stays, and members stand in ascending order of their names. -/
def Tree.value? : Tree → Option Value
  | .null => some .null
  | .bool b => some (.bool b)
  | .num n => n.value?
  | .str s => s.text.map .str
  | .arr items => (itemValues? items).map .arr
  | .obj members => (memberValues? members).map fun ms => .obj (Assoc.ofList ms)

def itemValues? : List Tree → Option (List Value)
  | [] => some []
  | t :: rest => do return (← t.value?) :: (← itemValues? rest)

def memberValues? : List (Spelled × Tree) → Option (List (String × Value))
  | [] => some []
  | (name, t) :: rest => do return (← name.text, ← t.value?) :: (← memberValues? rest)

end

end PluginHost.Json
