import PluginHost.Text.CharClass
/-!
Patterns of the shell language, on texts whose characters are bytes.
-/

namespace PluginHost.Shell

/-- What may stand between brackets. -/
inductive ClassItem where
  | range (first last : Char)
  | named (name : String)
deriving DecidableEq, Inhabited

/-- One element of a pattern. -/
inductive Glob where
  | char (c : Char)
  | one
  | any
  /-- A character among some, or among none of them. -/
  | oneOf (isNegated : Bool) (items : List ClassItem)
deriving DecidableEq, Inhabited

namespace ClassItem

/-- The order of bytes in ranges: those beyond ASCII come before the others. -/
def rank (c : Char) : Int := if c.toNat < 128 then c.toNat else (c.toNat : Int) - 256

def accepts (c : Char) : ClassItem → Bool
  | range first last => rank first ≤ rank c && rank c ≤ rank last
  | named name => Text.isInClass name c

end ClassItem

namespace Glob

/-- The items up to the closing bracket, and what follows it. A closing bracket that stands first is
    one of the characters. The fuel bounds the items. -/
def items? : Nat → Bool → List (Char × Bool) → Option (List ClassItem × List (Char × Bool))
  | 0, _, _ => none
  | _, _, [] => none
  | fuel + 1, isFirst, (c, isQuoted) :: rest =>
    let add := fun (item : ClassItem) (rest : List (Char × Bool)) =>
      (items? fuel false rest).map fun (items, after) => (item :: items, after)
    let alone := match rest with
      | ('-', false) :: (last, lastQuoted) :: after =>
        if (last, lastQuoted) = (']', false) then add (.range c c) rest
        else add (.range c last) after
      | _ => add (.range c c) rest
    if !isQuoted && c = ']' && !isFirst then some ([], rest)
    else if !isQuoted && c = '[' then
      match Text.classAt? (rest.map (·.1)) with
      | some (name, after) => add (.named name) (rest.drop (rest.length - after.length))
      | none => alone
    else alone

/-- The characters between brackets, if they are closed. -/
def bracket? (s : List (Char × Bool)) : Option (Glob × List (Char × Bool)) :=
  let isNegated := s.head? = some ('!', false)
  let s := if isNegated then s.drop 1 else s
  (items? (s.length + 1) true s).map fun (items, rest) => (.oneOf isNegated items, rest)

/-- The pattern that characters write; those with a mark stand for themselves. The fuel bounds their
    number. -/
def ofMarkedWithin : Nat → List (Char × Bool) → List Glob
  | 0, _ => []
  | _, [] => []
  | fuel + 1, (c, isQuoted) :: rest =>
    if isQuoted then char c :: ofMarkedWithin fuel rest
    else if c = '*' then any :: ofMarkedWithin fuel rest
    else if c = '?' then one :: ofMarkedWithin fuel rest
    else if c = '[' then
      match bracket? rest with
      | some (g, rest) => g :: ofMarkedWithin fuel rest
      | none => char c :: ofMarkedWithin fuel rest
    else if c = '\\' then
      match rest with
      | (e, _) :: rest => char e :: ofMarkedWithin fuel rest
      | [] => [char c]
    else char c :: ofMarkedWithin fuel rest

def ofMarked (s : List (Char × Bool)) : List Glob := ofMarkedWithin s.length s

/-- Whether a pattern matches more than one text. -/
def isOpen (p : List Glob) : Bool := p.any fun g => !(g matches .char _)

def suffixes : List Char → List (List Char)
  | [] => [[]]
  | c :: rest => (c :: rest) :: suffixes rest

def accepts (c : Char) : Glob → Bool
  | char d => c = d
  | one => true
  | any => true
  | oneOf isNegated items => (items.any (·.accepts c)) != isNegated

/-- Whether a pattern matches a whole text. -/
def isMatch : List Glob → List Char → Bool
  | [], s => s.isEmpty
  | [any], _ => true
  | any :: p, s => (suffixes s).any fun t => isMatch p t
  | _ :: _, [] => false
  | g :: p, c :: s => g.accepts c && isMatch p s

/-- A text without the shortest or longest start that matches. -/
def trimStart (isLongest : Bool) (p : List Glob) (s : List Char) : List Char :=
  let lengths := List.range (s.length + 1)
  match (if isLongest then lengths.reverse else lengths).find? fun n => isMatch p (s.take n) with
  | some n => s.drop n
  | none => s

/-- A text without the shortest or longest end that matches. -/
def trimEnd (isLongest : Bool) (p : List Glob) (s : List Char) : List Char :=
  let lengths := List.range (s.length + 1)
  match (if isLongest then lengths else lengths.reverse).find? fun n => isMatch p (s.drop n) with
  | some n => s.take n
  | none => s

end Glob

end PluginHost.Shell
