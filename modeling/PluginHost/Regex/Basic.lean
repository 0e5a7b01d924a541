import PluginHost.Text.CharClass
/-!
Regular expressions, and where in a text they match.

Of the matches of an expression the one that begins first counts, and of those the longest. How long it
can be is found from sets of positions; only then is it told which groups stand for which parts.
-/

namespace PluginHost

/-- What may stand between brackets. -/
inductive SetItem where
  | range (first last : Char)
  | named (name : String)
deriving DecidableEq, Inhabited

/-- A condition on a position. -/
inductive Anchor where
  | start
  | stop
  | wordStart
  | wordStop
  | wordEdge
  | inWord
  /-- No character of a word stands before. -/
  | noWordBefore
  /-- No character of a word stands behind. -/
  | noWordAfter
  | lineStart
  | lineStop
deriving DecidableEq, Inhabited

inductive Regex where
  | empty
  | char (c : Char)
  | any
  /-- A character among some, or among none of them. -/
  | oneOf (isNegated : Bool) (items : List SetItem)
  | seq (a b : Regex)
  | alt (a b : Regex)
  | times (least : Nat) (most : Option Nat) (r : Regex)
  | group (number : Nat) (r : Regex)
  /-- What a group has matched. -/
  | back (number : Nat)
  | anchor (a : Anchor)
deriving DecidableEq, Inhabited

/-- A text that is searched. -/
structure Subject where
  chars : Array Char
  ignoresCase : Bool
deriving Inhabited

namespace SetItem

def accepts (c : Char) : SetItem → Bool
  | range first last => first ≤ c && c ≤ last
  | named name => Text.isInClass name c

end SetItem

def isWordChar (c : Char) : Bool := c.isAlphanum || c = '_'

namespace Anchor

/-- Whether a position is as it has to be. -/
def holds (s : Subject) (position : Nat) : Anchor → Bool
  | start => position = 0
  | stop => position = s.chars.size
  | wordStart => !before && after
  | wordStop => before && !after
  | wordEdge => before != after
  | inWord => before == after
  | noWordBefore => !before
  | noWordAfter => !after
  | lineStart => position = 0 || s.chars[position - 1]? = some '\n'
  | lineStop => position = s.chars.size || s.chars[position]? = some '\n'
where
  before : Bool := 0 < position && (s.chars[position - 1]?).any isWordChar
  after : Bool := (s.chars[position]?).any isWordChar

end Anchor

namespace Regex

/-- Whether an expression that matches single characters matches one. -/
def acceptsChar (s : Subject) (c : Char) : Regex → Bool
  | char d => c = d || (s.ignoresCase && c.toLower = d.toLower)
  | any => true
  | oneOf isNegated items =>
    let isIn := fun c => items.any (·.accepts c)
    (isIn c || (s.ignoresCase && (isIn c.toLower || isIn c.toUpper))) != isNegated
  | _ => false

def isSingle : Regex → Bool
  | char _ | any | oneOf _ _ => true
  | _ => false

/-- Positions in ascending order that stand in one of two such lists. The fuel bounds both. -/
def unite : Nat → List Nat → List Nat → List Nat
  | 0, a, _ => a
  | _, [], b => b
  | _, a, [] => a
  | fuel + 1, x :: a, y :: b =>
    if x < y then x :: unite fuel a (y :: b)
    else if y < x then y :: unite fuel (x :: a) b
    else x :: unite fuel a b

def union (a b : List Nat) : List Nat := unite (a.length + b.length) a b

/-- How many characters in a row an expression for single ones matches. The fuel bounds them. -/
def runLength (s : Subject) (r : Regex) : Nat → Nat → Nat
  | 0, _ => 0
  | fuel + 1, position =>
    match s.chars[position]? with
    | some c => if r.acceptsChar s c then runLength s r fuel (position + 1) + 1 else 0
    | none => 0

/-- How many characters in a row may be matched from a position. -/
def runFrom (s : Subject) (r : Regex) (most : Option Nat) (position : Nat) : Nat :=
  let room := s.chars.size - position
  runLength s r (match most with
    | some n => min n room
    | none => room) position

/-- What can be reached by steps from some positions, with those that were reached before. The fuel
    bounds the steps. -/
def closure (step : List Nat → List Nat) : Nat → List Nat → List Nat → List Nat
  | 0, _, reached => reached
  | fuel + 1, current, reached =>
    let next := (step current).filter (!reached.contains ·)
    if next.isEmpty then reached else closure step fuel next (union reached next)

/-- Steps a number of times. -/
def iterate (step : List Nat → List Nat) : Nat → List Nat → List Nat
  | 0, current => current
  | n + 1, current => if current.isEmpty then [] else iterate step n (step current)

/-- Where matches end that begin at some positions. Groups are of no account; a part that stands for a
    group may match anything. -/
def ends (s : Subject) : Regex → List Nat → List Nat
  | empty, positions => positions
  | seq a b, positions => ends s b (ends s a positions)
  | alt a b, positions => union (ends s a positions) (ends s b positions)
  | times least most r, positions =>
    if r.isSingle then
      positions.foldl (fun found p =>
        let n := r.runFrom s most p
        if n < least then found
        else union found (List.range' (p + least) (n + 1 - least))) []
    else
      let first := iterate (ends s r) least positions
      let room := s.chars.size + 1
      closure (ends s r) (match most with
        | some n => min (n - least) room
        | none => room) first first
  | group _ r, positions => ends s r positions
  | back _, positions =>
    match positions with
    | [] => []
    | p :: _ => List.range' p (s.chars.size + 1 - p)
  | anchor a, positions => positions.filter fun p => a.holds s p
  | r, positions =>
    positions.filterMap fun p =>
      match s.chars[p]? with
      | some c => if r.acceptsChar s c then some (p + 1) else none
      | none => none

def hasBack : Regex → Bool
  | back _ => true
  | seq a b | alt a b => a.hasBack || b.hasBack
  | times _ _ r | group _ r => r.hasBack
  | _ => false

/-- The parts that groups have matched: where they begin and end. -/
abbrev Groups := List (Nat × Nat × Nat)

/-- Whether the characters from a position on are those from another. -/
def agrees (s : Subject) (start count position : Nat) : Bool :=
  (List.range count).all fun k =>
    match s.chars[start + k]?, s.chars[position + k]? with
    | some c, some d => c = d || (s.ignoresCase && c.toLower = d.toLower)
    | _, _ => false

/-- Finds a way to match from a position on that can go on, trying long parts first. The fuel bounds
    how deep the search is. -/
def walk (s : Subject) : Nat → Regex → Nat → Groups → (Nat → Groups → Option Groups) →
    Option Groups
  | 0, _, _, _, _ => none
  | fuel + 1, r, p, groups, goOn =>
    match r with
    | empty => goOn p groups
    | seq a b => walk s fuel a p groups fun p groups => walk s fuel b p groups goOn
    | alt a b => (walk s fuel a p groups goOn) <|> (walk s fuel b p groups goOn)
    | times least most r =>
      if r.isSingle then
        let n := r.runFrom s most p
        (List.range (n + 1 - least)).findSome? fun k => goOn (p + n - k) groups
      else if most = some 0 then goOn p groups
      else
        let more := walk s fuel r p groups fun q groups =>
          if q = p && least = 0 then none
          else walk s fuel (times (least - 1) (most.map (· - 1)) r) q groups goOn
        if least = 0 then more <|> goOn p groups else more
    | group n r =>
      walk s fuel r p groups fun q groups => goOn q ((n, p, q) :: groups.filter (·.1 ≠ n))
    | back n =>
      match groups.find? (·.1 = n) with
      | some (_, a, b) => if agrees s a (b - a) p then goOn (p + (b - a)) groups else none
      | none => none
    | anchor a => if a.holds s p then goOn p groups else none
    | r =>
      match s.chars[p]? with
      | some c => if r.acceptsChar s c then goOn (p + 1) groups else none
      | none => none

/-- How deep a search may be. -/
def size : Regex → Nat
  | seq a b | alt a b => a.size + b.size + 1
  | times least _ r => r.size + least + 2
  | group _ r => r.size + 1
  | _ => 1

/-- A part of a text that was matched. -/
structure Match where
  start : Nat
  stop : Nat
  groups : Groups
deriving Inhabited

/-- The longest match from a position on. -/
def matchAt? (r : Regex) (s : Subject) (start : Nat) : Option Match :=
  let stops := (r.ends s [start]).reverse
  (if r.hasBack then stops else stops.take 1).findSome? fun stop =>
    (walk s (2 * (r.size + 1) * (s.chars.size + 2)) r start [] fun p groups =>
      if p = stop then some groups else none).map fun groups => ⟨start, stop, groups⟩

/-- The first match from a position on. The fuel bounds the positions. -/
def searchWithin (r : Regex) (s : Subject) : Nat → Nat → Option Match
  | 0, _ => none
  | fuel + 1, start =>
    if s.chars.size < start then none
    else
      match matchAt? r s start with
      | some m => some m
      | none => searchWithin r s fuel (start + 1)

def search? (r : Regex) (s : Subject) (start : Nat) : Option Match :=
  searchWithin r s (s.chars.size + 1 - start) start

def isIn (r : Regex) (s : Subject) : Bool := (r.search? s 0).isSome

namespace Match

/-- The characters of a part of a text. -/
def textOf (s : Subject) (start stop : Nat) : List Char := (s.chars.extract start stop).toList

/-- What a group has matched; the number nought stands for the whole match. -/
def group (m : Match) (s : Subject) (n : Nat) : List Char :=
  if n = 0 then textOf s m.start m.stop
  else match m.groups.find? (·.1 = n) with
    | some (_, a, b) => textOf s a b
    | none => []

end Match

end Regex

end PluginHost
