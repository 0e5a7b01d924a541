/-!
Classes of single bytes that have names, as characters below 256. Only ASCII characters are in them.
-/

namespace PluginHost.Text

def isPunctuation (c : Char) : Bool := 0x21 ≤ c.toNat && c.toNat ≤ 0x7E && !c.isAlphanum

def isSpace (c : Char) : Bool := c = ' ' || (0x9 ≤ c.toNat && c.toNat ≤ 0xD)

/-- The class of a name. -/
def charClass? : String → Option (Char → Bool)
  | "alnum" => some Char.isAlphanum
  | "alpha" => some Char.isAlpha
  | "blank" => some fun c => c = ' ' || c = '\t'
  | "cntrl" => some fun c => c.toNat < 0x20 || c.toNat = 0x7F
  | "digit" => some Char.isDigit
  | "graph" => some fun c => 0x21 ≤ c.toNat && c.toNat ≤ 0x7E
  | "lower" => some Char.isLower
  | "print" => some fun c => 0x20 ≤ c.toNat && c.toNat ≤ 0x7E
  | "punct" => some isPunctuation
  | "space" => some isSpace
  | "upper" => some Char.isUpper
  | "xdigit" => some fun c => c.isDigit || ('a' ≤ c && c ≤ 'f') || ('A' ≤ c && c ≤ 'F')
  | _ => none

/-- The name of a class at the start of a text behind a bracket, and what follows its closing
    bracket. -/
def classAt? : List Char → Option (String × List Char)
  | ':' :: rest =>
    let name := rest.takeWhile (· ≠ ':')
    match rest.drop name.length with
    | ':' :: ']' :: after =>
      let name := String.ofList name
      if (charClass? name).isSome then some (name, after) else none
    | _ => none
  | _ => none

def isInClass (name : String) (c : Char) : Bool := (charClass? name).any (· c)

end PluginHost.Text
