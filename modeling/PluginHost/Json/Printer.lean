import PluginHost.Binary64.Basic
import PluginHost.Json.Value
import PluginHost.Text.Numeral
/-!
JSON text, compact or indented by two spaces a level.
-/

namespace PluginHost.Json

/-- How one character is written inside a string: quotes, backslashes and characters below U+0020
    are escaped, with a short escape where the format has one. -/
def escapedChar (c : Char) : List Char :=
  match c with
  | '"' => ['\\', '"']
  | '\\' => ['\\', '\\']
  | '\x08' => ['\\', 'b']
  | '\t' => ['\\', 't']
  | '\n' => ['\\', 'n']
  | '\x0C' => ['\\', 'f']
  | '\r' => ['\\', 'r']
  | c => if c.toNat < 0x20 then '\\' :: 'u' :: Text.hexFixed 4 c.toNat else [c]

def quotedText (s : List Char) : List Char := '"' :: s.flatMap escapedChar ++ ['"']

/-- The shortest text of a finite number: positional while the decimal point falls within the first
    sixteen digits or at most four zeros after the point, else scientific with a signed exponent;
    never an integer. -/
def floatText (x : Binary64) : List Char :=
  let sign : List Char := if x.isNegative then ['-'] else []
  if x.significand = 0 then sign ++ ['0', '.', '0']
  else
    let (number, exponent) := x.shortest
    let digits := Text.ofNat number
    let point : Int := digits.length + exponent
    sign ++
      if 0 ≤ exponent ∧ point ≤ 16 then
        digits ++ List.replicate exponent.toNat '0' ++ ['.', '0']
      else if 0 < point ∧ point ≤ 16 then
        digits.take point.toNat ++ '.' :: digits.drop point.toNat
      else if -5 < point ∧ point ≤ 0 then
        ['0', '.'] ++ List.replicate (-point).toNat '0' ++ digits
      else
        let tail := digits.drop 1
        digits.take 1 ++ (if tail.isEmpty then [] else '.' :: tail) ++
          'e' :: (if 0 < point then ['+'] else []) ++ Text.ofInt (point - 1)

/-- The text of a value without parts. What is no finite number is written as `null`. -/
def scalarText : Value → List Char
  | .bool true => ['t', 'r', 'u', 'e']
  | .bool false => ['f', 'a', 'l', 's', 'e']
  | .int n => Text.ofInt n
  | .float x => if x.isFinite then floatText x else ['n', 'u', 'l', 'l']
  | .str s => quotedText s.toList
  | _ => ['n', 'u', 'l', 'l']

mutual

/-- The text of a value without blanks, in front of what follows it. -/
def compactOnto : Value → List Char → List Char
  | .arr items, rest => '[' :: compactItems items (']' :: rest)
  | .obj members, rest => '{' :: compactMembers members ('}' :: rest)
  | v, rest => scalarText v ++ rest

/-- The items of an array with a comma before each but the first. -/
def compactItems : List Value → List Char → List Char
  | [], rest => rest
  | v :: items, rest => compactOnto v (compactMoreItems items rest)

def compactMoreItems : List Value → List Char → List Char
  | [], rest => rest
  | v :: items, rest => ',' :: compactOnto v (compactMoreItems items rest)

def compactMembers : List (String × Value) → List Char → List Char
  | [], rest => rest
  | (name, v) :: members, rest =>
    quotedText name.toList ++ ':' :: compactOnto v (compactMoreMembers members rest)

def compactMoreMembers : List (String × Value) → List Char → List Char
  | [], rest => rest
  | (name, v) :: members, rest =>
    ',' :: quotedText name.toList ++ ':' :: compactOnto v (compactMoreMembers members rest)

end

def compact (v : Value) : List Char := compactOnto v []

def indentation (depth : Nat) : List Char := '\n' :: List.replicate (2 * depth) ' '

mutual

/-- The indented text of a value that stands `depth` levels deep. -/
def pretty (depth : Nat) : Value → List Char
  | .arr [] => ['[', ']']
  | .arr items => '[' :: prettyItems (depth + 1) items ++ indentation depth ++ [']']
  | .obj [] => ['{', '}']
  | .obj members => '{' :: prettyMembers (depth + 1) members ++ indentation depth ++ ['}']
  | v => scalarText v

def prettyItems (depth : Nat) : List Value → List Char
  | [] => []
  | [v] => indentation depth ++ pretty depth v
  | v :: rest => indentation depth ++ pretty depth v ++ ',' :: prettyItems depth rest

def prettyMembers (depth : Nat) : List (String × Value) → List Char
  | [] => []
  | [(name, v)] => indentation depth ++ quotedText name.toList ++ [':', ' '] ++ pretty depth v
  | (name, v) :: rest =>
    indentation depth ++ quotedText name.toList ++ [':', ' '] ++ pretty depth v ++
      ',' :: prettyMembers depth rest

end

def Value.compactText (v : Value) : String := String.ofList (compact v)

def Value.prettyText (v : Value) : String := String.ofList (pretty 0 v)

end PluginHost.Json
