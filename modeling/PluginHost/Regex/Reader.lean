import PluginHost.Regex.Basic
import PluginHost.Text.Escape
import PluginHost.Text.Numeral
/-!
Regular expressions as texts.

There are two ways to write them: in the basic one a backslash makes an operator of a parenthesis, a
brace, a bar, a plus sign or a question mark, in the extended one it takes the operator away.
-/

namespace PluginHost

/-- How expressions are written. -/
structure RegexStyle where
  isExtended : Bool
  /-- Whether letters behind backslashes stand for characters like line ends. -/
  hasEscapes : Bool
  /-- Whether backslashes count between brackets too. -/
  hasEscapesInSets : Bool
  /-- Whether operators that have nothing to work on stand for themselves or for nothing. -/
  isLenient : Bool
deriving DecidableEq, Inhabited

inductive RegexFault where
  | unmatchedBracket
  | unmatchedOpening
  | unmatchedClosing
  | unmatchedBrace
  | badInterval
  | badReference
  | badClass
  | badRange
  | trailingBackslash
  | nothingToRepeat
  | badPattern
  | tooBig
deriving DecidableEq, Inhabited

def RegexFault.message : RegexFault → String
  | unmatchedBracket => "Unmatched [, [^, [:, [., or [="
  | unmatchedOpening => "Unmatched ( or \\("
  | unmatchedClosing => "Unmatched ) or \\)"
  | unmatchedBrace => "Unmatched \\\x7b"
  | badInterval => "Invalid content of \\\x7b\\\x7d"
  | badReference => "Invalid back reference"
  | badClass => "Invalid character class name"
  | badRange => "Invalid range end"
  | trailingBackslash => "Trailing backslash"
  | nothingToRepeat => "Invalid preceding regular expression"
  | badPattern => "Invalid regular expression"
  | tooBig => "Regular expression too big"

namespace Regex

/-- A part of an expression as it is written. -/
inductive Token where
  | single (r : Regex)
  | opening
  | closing
  | bar
  | times (least : Nat) (most : Option Nat)
deriving DecidableEq, Inhabited

/-- The characters up to the mark that ends a class, a collating element or an equivalence, and what
    follows. -/
def untilMark (mark : Char) : List Char → Option (List Char × List Char)
  | c :: ']' :: rest =>
    if c = mark then some ([], rest)
    else (untilMark mark (']' :: rest)).map fun (s, after) => (c :: s, after)
  | c :: rest => (untilMark mark rest).map fun (s, after) => (c :: s, after)
  | [] => none

/-- One end of a range between brackets, or a class. -/
def takeSetElement (style : RegexStyle) (s : List Char) :
    Except RegexFault ((Char ⊕ String) × List Char) :=
  match s with
  | '[' :: ':' :: rest =>
    match untilMark ':' rest with
    | some (name, after) =>
      let name := String.ofList name
      if (Text.charClass? name).isSome then .ok (.inr name, after) else .error .badClass
    | none => .ok (.inl '[', ':' :: rest)
  | '[' :: m :: rest =>
    if m = '.' || m = '=' then
      match untilMark m rest with
      | some ([c], after) => .ok (.inl c, after)
      | _ => .error .unmatchedBracket
    else .ok (.inl '[', m :: rest)
  | '\\' :: c :: rest =>
    if style.hasEscapesInSets then
      match Text.escape? c with
      | some e => .ok (.inl e, rest)
      | none => .ok (.inl c, rest)
    else if style.hasEscapes && c ∈ ['n', 't', 'f', 'v', 'a', 'r'] then
      .ok (.inl ((Text.escape? c).getD c), rest)
    else if let some (c, rest) := if style.hasEscapes then Text.takeCoded (c :: rest) else none then
      .ok (.inl c, rest)
    else .ok (.inl '\\', c :: rest)
  | c :: rest => .ok (.inl c, rest)
  | [] => .error .unmatchedBracket

/-- The items between brackets, and what follows. A closing bracket that stands first is a character.
    The fuel bounds the items. -/
def takeSet (style : RegexStyle) : Nat → Bool → List Char →
    Except RegexFault (List SetItem × List Char)
  | 0, _, _ => .error .unmatchedBracket
  | fuel + 1, isFirst, s =>
    match s with
    | [] => .error .unmatchedBracket
    | c :: rest => do
      if c = ']' && !isFirst then return ([], rest)
      let add := fun (item : SetItem) (after : List Char) => do
        let (items, after) ← takeSet style fuel false after
        return (item :: items, after)
      match ← takeSetElement style s with
      | (.inr name, after) => add (.named name) after
      | (.inl first, '-' :: after) =>
        match after with
        | ']' :: _ => add (.range first first) ('-' :: after)
        | after =>
          match ← takeSetElement style after with
          | (.inl last, after) =>
            if last < first then throw .badRange else add (.range first last) after
          | (.inr _, _) => throw .badRange
      | (.inl first, after) => add (.range first first) after

/-- A set behind its bracket. -/
def takeBracket (style : RegexStyle) (s : List Char) : Except RegexFault (Regex × List Char) := do
  let (isNegated, s) := match s with
    | '^' :: rest => (true, rest)
    | s => (false, s)
  if s.isEmpty then throw .badPattern
  let (items, rest) ← takeSet style (s.length + 1) true s
  return (.oneOf isNegated items, rest)

/-- The numbers of an interval, and what follows the text that closes it. -/
def takeInterval? (closing : List Char) (s : List Char) : Option (Nat × Option Nat × List Char) := do
  let (least, rest) := Text.takeDigits 10 s
  let close := fun (most : Option Nat) (rest : List Char) =>
    if closing.isPrefixOf rest then
      some (Text.digitsValue 10 least, most, rest.drop closing.length)
    else none
  match rest with
  | ',' :: rest =>
    let (most, rest) := Text.takeDigits 10 rest
    if most.isEmpty then close none rest else close (some (Text.digitsValue 10 most)) rest
  | rest => if least.isEmpty then none else close (some (Text.digitsValue 10 least)) rest

/-- What a letter behind a backslash stands for, whatever the style. -/
def classEscape? : Char → Option Regex
  | 'w' => some (.oneOf false [.named "alnum", .range '_' '_'])
  | 'W' => some (.oneOf true [.named "alnum", .range '_' '_'])
  | 's' => some (.oneOf false [.named "space"])
  | 'S' => some (.oneOf true [.named "space"])
  | 'b' => some (.anchor .wordEdge)
  | 'B' => some (.anchor .inWord)
  | '<' => some (.anchor .wordStart)
  | '>' => some (.anchor .wordStop)
  | '\'' => some (.anchor .stop)
  | c => if c.toNat = 0x60 then some (.anchor .start) else none

/-- Whether a dollar sign in the basic style stands at the end of a part. -/
def isAtEnd : List Char → Bool
  | [] => true
  | '\\' :: c :: _ => c = ')' || c = '|'
  | _ => false

/-- The highest number of repetitions. -/
def maxTimes : Nat := 0x7FFF

/-- The parts of an expression. `isStart` tells whether an alternative begins. The fuel bounds the
    characters. -/
def tokens (style : RegexStyle) : Nat → Bool → List Char → Except RegexFault (List Token)
  | 0, _, _ => .ok []
  | _, _, [] => .ok []
  | fuel + 1, isStart, c :: rest => do
    let goOn := fun (t : Token) (isStart : Bool) (rest : List Char) => do
      return t :: (← tokens style fuel isStart rest)
    let literal := fun (c : Char) (rest : List Char) => goOn (.single (.char c)) false rest
    let interval := fun (closing : List Char) (rest : List Char) =>
      match takeInterval? closing rest with
      | some (least, most, rest) =>
        if most.any (· < least) then throw .badInterval
        else if maxTimes < most.getD least then throw .tooBig
        else goOn (.times least most) false rest
      | none =>
        if style.isExtended && style.isLenient then literal '\x7b' rest else throw .unmatchedBrace
    let alone := fun (rest : List Char) =>
      if style.isLenient then tokens style fuel isStart rest else throw .nothingToRepeat
    if c = '\\' then
      match rest with
      | [] => throw .trailingBackslash
      | e :: rest =>
        let isBasic := !style.isExtended
        if e.isDigit && e ≠ '0' then goOn (.single (.back (e.toNat - '0'.toNat))) false rest
        else if isBasic && e = '(' then goOn .opening true rest
        else if isBasic && e = ')' then goOn .closing false rest
        else if isBasic && e = '|' then goOn .bar true rest
        else if isBasic && e = '\x7b' then
          if isStart then (if style.isLenient then literal '\x7b' rest else throw .nothingToRepeat)
          else interval ['\\', '\x7d'] rest
        else if isBasic && e = '+' && !isStart then goOn (.times 1 none) false rest
        else if isBasic && e = '?' && !isStart then goOn (.times 0 (some 1)) false rest
        else if style.hasEscapes && e ∈ ['n', 't', 'f', 'v', 'a', 'r'] then
          literal ((Text.escape? e).getD e) rest
        else if let some (c, rest) := if style.hasEscapes then Text.takeCoded (e :: rest) else none then
          literal c rest
        else
          match classEscape? e with
          | some r => goOn (.single r) false rest
          | none => literal e rest
    else if c = '[' then
      let (r, rest) ← takeBracket style rest
      goOn (.single r) false rest
    else if c = '.' then goOn (.single .any) false rest
    else if c = '*' then
      if !isStart then goOn (.times 0 none) false rest
      else if style.isExtended then alone rest
      else literal '*' rest
    else if style.isExtended then
      match c with
      | '^' => goOn (.single (.anchor .start)) true rest
      | '$' => goOn (.single (.anchor .stop)) false rest
      | '(' => goOn .opening true rest
      | ')' => goOn .closing false rest
      | '|' => goOn .bar true rest
      | '+' => if isStart then alone rest else goOn (.times 1 none) false rest
      | '?' => if isStart then alone rest else goOn (.times 0 (some 1)) false rest
      | '\x7b' =>
        if !isStart then interval ['\x7d'] rest
        else if !style.isLenient then throw .nothingToRepeat
        else match takeInterval? ['\x7d'] rest with
          | some (_, _, rest) => tokens style fuel isStart rest
          | none => literal c rest
      | c => literal c rest
    else if c = '^' && isStart then goOn (.single (.anchor .start)) true rest
    else if c = '$' && isAtEnd rest then goOn (.single (.anchor .stop)) false rest
    else literal c rest

/-- Tokens that are left, and the number of the last group. -/
abbrev Reader (α : Type) := StateT (List Token × Nat) (Except RegexFault) α

/-- The repetitions behind a part. The fuel bounds them. -/
def repeated : Nat → Regex → Reader Regex
  | 0, r => return r
  | fuel + 1, r => do
    match ← get with
    | (.times least most :: rest, n) =>
      set (rest, n)
      repeated fuel (.times least most r)
    | _ => return r

mutual

/-- Alternatives. The fuel bounds the tokens; the same holds below. -/
def alternatives : Nat → Reader Regex
  | 0 => return .empty
  | fuel + 1 => do
    let a ← branch fuel .empty
    match ← get with
    | (.bar :: rest, n) =>
      set (rest, n)
      return .alt a (← alternatives fuel)
    | _ => return a

/-- Parts in a row, behind those that were read. -/
def branch : Nat → Regex → Reader Regex
  | 0, done => return done
  | fuel + 1, done => do
    let join := fun (r : Regex) => if done = .empty then r else .seq done r
    match ← get with
    | (.single r :: rest, n) =>
      set (rest, n)
      branch fuel (join (← repeated (rest.length + 1) r))
    | (.times _ _ :: rest, n) =>
      set (rest, n)
      branch fuel done
    | (.opening :: rest, n) =>
      set (rest, n + 1)
      let r ← alternatives fuel
      match ← get with
      | (.closing :: rest, m) =>
        set (rest, m)
        branch fuel (join (← repeated (rest.length + 1) (.group (n + 1) r)))
      | _ => throw .unmatchedOpening
    | _ => return done

end

/-- The highest number of a group that a part stands for. -/
def lastBack : Regex → Nat
  | back n => n
  | seq a b | alt a b => max a.lastBack b.lastBack
  | times _ _ r | group _ r => r.lastBack
  | _ => 0

/-- Makes characters of the parentheses that close nothing. -/
def keepClosing : Nat → List Token → List Token
  | depth, .opening :: rest => .opening :: keepClosing (depth + 1) rest
  | 0, .closing :: rest => .single (.char ')') :: keepClosing 0 rest
  | depth + 1, .closing :: rest => .closing :: keepClosing depth rest
  | depth, t :: rest => t :: keepClosing depth rest
  | _, [] => []

/-- The expression that a text writes. -/
def ofText (style : RegexStyle) (s : List Char) : Except RegexFault Regex := do
  let ts ← tokens style (s.length + 1) true s
  let ts := if style.isLenient && style.isExtended then keepClosing 0 ts else ts
  let (r, rest, groups) ← (alternatives (3 * ts.length + 3)).run (ts, 0)
  if rest.contains .closing then throw .unmatchedClosing
  if groups < r.lastBack then throw .badReference
  return r

/-- How many groups an expression has. -/
def groupCount : Regex → Nat
  | seq a b | alt a b => a.groupCount + b.groupCount
  | times _ _ r => r.groupCount
  | group _ r => r.groupCount + 1
  | _ => 0

end Regex

end PluginHost
