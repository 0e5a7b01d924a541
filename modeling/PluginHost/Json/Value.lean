import PluginHost.Binary64.Basic
import PluginHost.Text.Utf8
/-!
Structured values as they are written, and structured text as it was read.

A value belongs to the JSON data model, with integers apart from other numbers. A tree is text before
it is known what type it is for: it keeps what a reader of typed data may still refuse or skip, which
is a number as its digits, a text that no sequence of characters can stand for, and every member of an
object in the order written.
-/

namespace PluginHost.Json

inductive Value where
  | null
  | bool (value : Bool)
  | int (value : Int)
  | float (value : Binary64)
  | str (text : String)
  | arr (items : List Value)
  | obj (members : List (String × Value))
deriving Inhabited

namespace Value

/-- A number that never carries a sign. -/
def nat (n : Nat) : Value := .int n

/-- The written form of a value that may be absent. -/
def ofOption {α : Type} (encode : α → Value) : Option α → Value
  | none => .null
  | some a => encode a

/-- The written form of a list of texts. -/
def texts (items : List String) : Value := .arr (items.map .str)

mutual

/-- The value with the members of every object in ascending order of their names. -/
def sortMembers : Value → Value
  | .arr items => .arr (sortItems items)
  | .obj members => .obj ((sortPairs members).mergeSort fun a b => a.1 ≤ b.1)
  | v => v

def sortItems : List Value → List Value
  | [] => []
  | v :: rest => v.sortMembers :: sortItems rest

def sortPairs : List (String × Value) → List (String × Value)
  | [] => []
  | (name, v) :: rest => (name, v.sortMembers) :: sortPairs rest

end

mutual

/-- The value with every text in it, names of members excepted, changed by `f`. -/
def mapText (f : String → String) : Value → Value
  | .str text => .str (f text)
  | .arr items => .arr (mapTextItems f items)
  | .obj members => .obj (mapTextPairs f members)
  | v => v

def mapTextItems (f : String → String) : List Value → List Value
  | [] => []
  | v :: rest => v.mapText f :: mapTextItems f rest

def mapTextPairs (f : String → String) : List (String × Value) → List (String × Value)
  | [] => []
  | (name, v) :: rest => (name, v.mapText f) :: mapTextPairs f rest

end

end Value

/-! Structured text as it was read. -/

/-- A number as written. -/
structure Number where
  negative : Bool
  whole : List Char
  fraction : Option (List Char)
  /-- Sign and digits of the power of ten. -/
  exponent : Option (Bool × List Char)
deriving DecidableEq

namespace Number

/-- The integer that a number without fraction and exponent writes; negative zero writes none. -/
def int? (n : Number) : Option Int :=
  if n.fraction.isSome || n.exponent.isSome then none
  else
    let magnitude := Nat.ofDigitChars 10 n.whole 0
    if n.negative then (if magnitude = 0 then none else some (-(magnitude : Int)))
    else some magnitude

def toBinary64 (n : Number) : Binary64 :=
  let fraction := n.fraction.getD []
  let mantissa := Nat.ofDigitChars 10 (n.whole ++ fraction) 0
  let power : Int := match n.exponent with
    | none => 0
    | some (negative, digits) =>
      let size : Int := Nat.ofDigitChars 10 digits 0
      if negative then -size else size
  Binary64.ofDecimal n.negative mantissa (power - fraction.length)

/-- Whether the number has a finite value of 64 bits. -/
def isFinite (n : Number) : Bool := n.toBinary64.isFinite

end Number

/-- A text as written: the text itself, unless no characters can stand for it, and whether it was
    written without escapes. -/
structure Spelled where
  text : Option String
  plain : Bool
deriving DecidableEq

inductive Tree where
  | null
  | bool (value : Bool)
  | num (number : Number)
  | str (text : Spelled)
  | arr (items : List Tree)
  | obj (members : List (Spelled × Tree))
deriving Inhabited

end PluginHost.Json
