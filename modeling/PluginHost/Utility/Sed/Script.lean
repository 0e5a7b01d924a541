import PluginHost.Regex.Basic
import PluginHost.Regex.Reader
/-!
Scripts of the stream editor: addresses and commands, and how they are written.
-/

namespace PluginHost.Utility.Sed

/-- An expression that is searched for. -/
structure Sought where
  regex : Regex
  ignoresCase : Bool
deriving Inhabited

/-- What chooses lines. -/
inductive Address where
  | line (n : Nat)
  /-- Every so many lines from one on. -/
  | every (first step : Nat)
  | last
  /-- Without an expression the one that was used last is meant. -/
  | sought (s : Option Sought)
deriving Inhabited

/-- Where a range of lines ends. -/
inductive Stop where
  | at (a : Address)
  /-- So many lines after the first one. -/
  | after (count : Nat)
  /-- The next line whose number is a multiple. -/
  | multiple (n : Nat)
deriving Inhabited

/-- How the letters that follow are changed. -/
inductive Casing where
  | upper
  | lower
  | upperNext
  | lowerNext
  | plain
deriving DecidableEq, Inhabited

/-- A part of what is put in place of a match. -/
inductive Piece where
  | char (c : Char)
  | group (n : Nat)
  | casing (k : Casing)
deriving DecidableEq, Inhabited

structure Substitution where
  sought : Option Sought
  pieces : List Piece
  /-- The number of the first match that is replaced. -/
  first : Nat
  isGlobal : Bool
  isPrinted : Bool
  file : Option String
deriving Inhabited

inductive Action where
  /-- A block; its end is where a script goes on that leaves it out. -/
  | block (stop : Nat)
  | blockEnd
  | number
  | append (text : List Char)
  | insert (text : List Char)
  | change (text : List Char)
  | label
  /-- Goes to a label, or to the end. -/
  | branch (label : String)
  | branchIfDone (label : String)
  | branchUnlessDone (label : String)
  | delete
  | deleteLine
  | fromHold
  | appendHold
  | toHold
  | appendToHold
  | exchange
  | list (width : Option Nat)
  | next
  | appendNext
  | print
  | printLine
  | quit (status : Nat) (isSilent : Bool)
  | readFile (path : String)
  | writeFile (path : String)
  | writeLine (path : String)
  | substitute (s : Substitution)
  | replaceChars (table : List (Char × Char))
  | fileName
  | zap
  | nothing
deriving Inhabited

structure Command where
  first : Option Address
  stop : Option Stop
  isNegated : Bool
  action : Action
deriving Inhabited

/-- Commands in a row, and where the labels stand. -/
structure Script where
  commands : Array Command
  labels : List (String × Nat)
  /-- Whether its first line says that nothing is printed by itself. -/
  isQuiet : Bool
deriving Inhabited

/-! Scripts as texts. -/

/-- What is wrong with a script, and how much of it was read until then; nothing counts as read where
    the script as a whole is wrong. -/
structure ScriptFault where
  message : String
  left : Option Nat

/-- The text of a script that is left, the commands, the places of blocks that are open, and the
    labels. -/
structure Reading where
  rest : List Char
  commands : Array Command
  opened : List Nat
  labels : List (String × Nat)
deriving Inhabited

abbrev Reader (α : Type) := StateT Reading (Except ScriptFault) α

namespace Reader

def fault {α : Type} (message : String) : Reader α := do
  throw ⟨message, some (← get).rest.length⟩

def peek? : Reader (Option Char) := return (← get).rest.head?

def skip (count : Nat) : Reader Unit := modify fun r => { r with rest := r.rest.drop count }

def next? : Reader (Option Char) := do
  let c ← peek?
  skip 1
  return c

/-- Reads a character if it is next. -/
def reads (c : Char) : Reader Bool := do
  if (← peek?) = some c then
    skip 1
    return true
  else return false

def takeWhile (isIn : Char → Bool) : Reader (List Char) := do
  let s := (← get).rest.takeWhile isIn
  skip s.length
  return s

def isBlank (c : Char) : Bool := c = ' ' || c = '\t'

def skipBlanks : Reader Unit := do
  let _ ← takeWhile isBlank

def skipSpaces : Reader Unit := do
  let _ ← takeWhile fun c => Text.isSpace c || c = ';'

def number? : Reader (Option Nat) := do
  let digits ← takeWhile Char.isDigit
  return if digits.isEmpty then none else some (Nat.ofDigitChars 10 digits 0)

/-- Reads up to a delimiter. In expressions a line end may be written as a letter, and between brackets
    the delimiter does not count. There is nothing if it is missing. The fuel bounds the characters. -/
def untilWithin (delimiter : Char) (isRegex : Bool) :
    Nat → Bool → List Char → Reader (Option (List Char))
  | 0, _, _ => return none
  | fuel + 1, inBrackets, done => do
    match ← peek? with
    | none | some '\n' => return none
    | some c =>
      skip 1
      if c = delimiter && !inBrackets then return some done.reverse
      else if c = '\\' && !inBrackets then
        match ← next? with
        | none => return none
        | some e =>
          if e = delimiter && !(!isRegex && e = '&') then
            untilWithin delimiter isRegex fuel false (e :: done)
          else if e = 'n' && isRegex then untilWithin delimiter isRegex fuel false ('\n' :: done)
          else if e = '\n' && isRegex then untilWithin delimiter isRegex fuel false ('\n' :: done)
          else untilWithin delimiter isRegex fuel false (e :: '\\' :: done)
      else if inBrackets then untilWithin delimiter isRegex fuel (c ≠ ']') (c :: done)
      else if c = '[' && isRegex then
        /- a closing bracket that stands first does not close -/
        let start := match (← get).rest with
          | '^' :: ']' :: _ => ['^', ']']
          | '^' :: _ => ['^']
          | ']' :: _ => [']']
          | _ => []
        skip start.length
        untilWithin delimiter isRegex fuel true (start.reverse ++ c :: done)
      else untilWithin delimiter isRegex fuel false (c :: done)

def upTo (delimiter : Char) (isRegex : Bool) : Reader (Option (List Char)) := do
  untilWithin delimiter isRegex ((← get).rest.length + 1) false []

/-- An expression that looks for the ends of lines within the text. -/
def inLines : Regex → Regex
  | .anchor .start => .anchor .lineStart
  | .anchor .stop => .anchor .lineStop
  | .seq a b => .seq (inLines a) (inLines b)
  | .alt a b => .alt (inLines a) (inLines b)
  | .times least most r => .times least most (inLines r)
  | .group n r => .group n (inLines r)
  | r => r

/-- The expression that a text writes. -/
def sought (isExtended ignoresCase hasLines : Bool) (text : List Char) : Reader (Option Sought) := do
  if text.isEmpty then return none
  match Regex.ofText ⟨isExtended, true, false, false⟩ text with
  | .ok r => return some ⟨if hasLines then inLines r else r, ignoresCase⟩
  | .error f => fault f.message

/-- An address, if there is one. -/
def address? (isExtended : Bool) : Reader (Option Address) := do
  let expression := fun (delimiter : Char) => show Reader (Option Address) from do
    match ← upTo delimiter true with
    | none => fault "unterminated address regex"
    | some text =>
      let flags ← takeWhile fun c => c = 'I' || c = 'M'
      return some (.sought (← sought isExtended (flags.contains 'I') (flags.contains 'M') text))
  match ← peek? with
  | some '/' =>
    skip 1
    expression '/'
  | some '\\' =>
    skip 1
    match ← next? with
    | some c => expression c
    | none => fault "unexpected `,'"
  | some '$' =>
    skip 1
    return some .last
  | some c =>
    if !c.isDigit then return none
    let n := (← number?).getD 0
    if ← reads '~' then return some (.every n ((← number?).getD 0))
    else return some (.line n)
  | none => return none

/-- Where a range ends. -/
def stop? (isExtended : Bool) : Reader (Option Stop) := do
  if ← reads '+' then return some (.after ((← number?).getD 0))
  if ← reads '~' then return some (.multiple ((← number?).getD 0))
  return (← address? isExtended).map Stop.at

/-- Reads to the end of a command. -/
def finish : Reader Unit := do
  skipBlanks
  match ← peek? with
  | none | some '\x7d' | some '#' => return
  | some c =>
    skip 1
    if c ≠ '\n' && c ≠ ';' && c ≠ '\r' then fault "extra characters after command"

/-- The text behind a command, in which backslashes take away what is special. The fuel bounds the
    characters. -/
def textWithin : Nat → List Char → Reader (List Char)
  | 0, done => return done.reverse
  | fuel + 1, done => do
    match ← next? with
    | none | some '\n' => return done.reverse
    | some '\\' =>
      match ← next? with
      | none => return done.reverse
      | some e =>
        if e ∈ ['a', 'f', 'n', 'r', 't', 'v'] then textWithin fuel ((Text.escape? e).getD e :: done)
        else textWithin fuel (e :: done)
    | some c => textWithin fuel (c :: done)

/-- The lines that a command adds. -/
def lines : Reader (List Char) := do
  skipBlanks
  match ← peek? with
  | none => fault "expected \\ after `a', `c' or `i'"
  | some '\\' =>
    skip 1
    let blanks := (← get).rest.takeWhile isBlank
    match (← get).rest.drop blanks.length with
    | '\n' :: _ => skip (blanks.length + 1)
    | [] => skip blanks.length
    | _ => pure ()
    if (← get).rest.isEmpty then return []
  | some _ => pure ()
  let text ← textWithin ((← get).rest.length + 1) []
  return text ++ ['\n']

def file : Reader String := do
  skipBlanks
  let name ← takeWhile (· ≠ '\n')
  if name.isEmpty then fault "missing filename in r/R/w/W commands"
  skip 1
  return String.ofList name

def labelName : Reader String := do
  skipBlanks
  let name ← takeWhile fun c => !Text.isSpace c && c ≠ ';'
  return String.ofList name

/-- What is put in place of a match, as it is written. The fuel bounds the characters. -/
def piecesWithin : Nat → List Char → List Piece
  | 0, _ => []
  | _, [] => []
  | fuel + 1, '\\' :: c :: rest =>
    match Text.takeCoded (c :: rest) with
    | some (e, rest) => .char e :: piecesWithin fuel rest
    | none =>
      let piece := if c.isDigit then Piece.group (c.toNat - '0'.toNat)
        else match c with
          | 'U' => .casing .upper
          | 'L' => .casing .lower
          | 'u' => .casing .upperNext
          | 'l' => .casing .lowerNext
          | 'E' => .casing .plain
          | c => if c ∈ ['a', 'f', 'n', 'r', 't', 'v'] then .char ((Text.escape? c).getD c) else .char c
      piece :: piecesWithin fuel rest
  | fuel + 1, '&' :: rest => .group 0 :: piecesWithin fuel rest
  | fuel + 1, c :: rest => .char c :: piecesWithin fuel rest

def piecesOf (s : List Char) : List Piece := piecesWithin s.length s

/-- What may stand behind a substitution. -/
structure Flags where
  number : Option Nat
  isGlobal : Bool
  isPrinted : Bool
  ignoresCase : Bool
  hasLines : Bool
  file : Option String

def flagsWithin : Nat → Flags → Reader Flags
  | 0, f => return f
  | fuel + 1, f => do
    match ← peek? with
    | none => return f
    | some '\x7d' | some '#' => return f
    | some c =>
      if c.isDigit then
        let n := (← number?).getD 0
        if n = 0 then fault "number option to `s' command may not be zero"
        if f.number.isSome then fault "multiple number options to `s' command"
        flagsWithin fuel { f with number := some n }
      else
        skip 1
        match c with
        | 'i' | 'I' => flagsWithin fuel { f with ignoresCase := true }
        | 'm' | 'M' => flagsWithin fuel { f with hasLines := true }
        | 'p' =>
          if f.isPrinted then fault "multiple `p' options to `s' command"
          flagsWithin fuel { f with isPrinted := true }
        | 'g' =>
          if f.isGlobal then fault "multiple `g' options to `s' command"
          flagsWithin fuel { f with isGlobal := true }
        | 'w' => return { f with file := some (← file) }
        | '\n' | ';' => return f
        | ' ' | '\t' | '\r' => flagsWithin fuel f
        | _ => fault "unknown option to `s'"

def substitution (isExtended : Bool) : Reader Action := do
  let broken := fun (_ : Unit) => (fault "unterminated `s' command" : Reader Action)
  match ← next? with
  | none => broken ()
  | some delimiter =>
    match ← upTo delimiter true with
    | none => broken ()
    | some text =>
      match ← upTo' delimiter with
      | none => broken ()
      | some new =>
        let f ← flagsWithin ((← get).rest.length + 1) ⟨none, false, false, false, false, none⟩
        let sought ← sought isExtended f.ignoresCase f.hasLines text
        let pieces := piecesOf new
        let highest := pieces.foldl (fun n p => match p with
          | .group m => max n m
          | _ => n) 0
        match sought with
        | some s =>
          if s.regex.groupCount < highest then
            fault ("invalid reference \\" ++ toString highest ++ " on `s' command's RHS")
        | none => pure ()
        return .substitute ⟨sought, pieces, f.number.getD 1, f.isGlobal, f.isPrinted, f.file⟩
where
  /-- What is put in place of a match may go over several lines. -/
  upTo' (delimiter : Char) : Reader (Option (List Char)) := do
    replacement delimiter ((← get).rest.length + 1) []
  replacement (delimiter : Char) : Nat → List Char → Reader (Option (List Char))
    | 0, _ => return none
    | fuel + 1, done => do
      match ← next? with
      | none | some '\n' => return none
      | some c =>
        if c = delimiter then return some done.reverse
        else if c = '\\' then
          match ← next? with
          | none => return none
          | some e =>
            if e = delimiter && e ≠ '&' then replacement delimiter fuel (e :: done)
            else replacement delimiter fuel (e :: '\\' :: done)
        else replacement delimiter fuel (c :: done)

/-- The characters of one side of a table. -/
def tableChars : List Char → List Char
  | '\\' :: c :: rest =>
    if c = '\\' then '\\' :: tableChars rest
    else if c ∈ ['a', 'f', 'n', 'r', 't', 'v'] then (Text.escape? c).getD c :: tableChars rest
    else '\\' :: c :: tableChars rest
  | c :: rest => c :: tableChars rest
  | [] => []

def table : Reader Action := do
  match ← next? with
  | none => fault "unterminated `y' command"
  | some delimiter =>
    let some a ← upTo delimiter false | fault "unterminated `y' command"
    let some b ← upTo delimiter false | fault "unterminated `y' command"
    let a := tableChars a
    let b := tableChars b
    if a.length ≠ b.length then fault "strings for `y' command are different lengths"
    finish
    return .replaceChars (a.zip b)

/-- What a letter stands for, with all that belongs to it. -/
def action (isExtended : Bool) (letter : Char) (hasAddress : Bool) : Reader Action := do
  let plain := fun (a : Action) => show Reader Action from do
    finish
    return a
  let counted := fun (make : Option Nat → Action) => show Reader Action from do
    skipBlanks
    let n ← number?
    finish
    return make n
  match letter with
  | '\x7d' =>
    if (← get).opened.isEmpty then fault "unexpected `\x7d'"
    if hasAddress then fault "\x7d doesn't want any addresses"
    modify fun r =>
      let place := r.opened.head?.getD 0
      { r with
        opened := r.opened.drop 1
        commands := r.commands.modify place fun c => { c with action := .block r.commands.size } }
    plain .blockEnd
  | '=' => plain .number
  | 'a' => return .append (← lines)
  | 'i' => return .insert (← lines)
  | 'c' => return .change (← lines)
  | ':' =>
    if hasAddress then fault ": doesn't want any addresses"
    let name ← labelName
    if name.isEmpty then fault "\":\" lacks a label"
    modify fun r => { r with labels := (name, r.commands.size) :: r.labels }
    return .label
  | 'b' => return .branch (← labelName)
  | 't' => return .branchIfDone (← labelName)
  | 'T' => return .branchUnlessDone (← labelName)
  | 'd' => plain .delete
  | 'D' => plain .deleteLine
  | 'g' => plain .fromHold
  | 'G' => plain .appendHold
  | 'h' => plain .toHold
  | 'H' => plain .appendToHold
  | 'x' => plain .exchange
  | 'l' => counted .list
  | 'n' => plain .next
  | 'N' => plain .appendNext
  | 'p' => plain .print
  | 'P' => plain .printLine
  | 'q' => counted fun n => .quit (n.getD 0) false
  | 'Q' => counted fun n => .quit (n.getD 0) true
  | 'r' => return .readFile (← file)
  | 'w' => return .writeFile (← file)
  | 'W' => return .writeLine (← file)
  | 's' => substitution isExtended
  | 'y' => table
  | 'F' => plain .fileName
  | 'z' => plain .zap
  | 'v' =>
    let _ ← labelName
    return .nothing
  | c => fault ("unknown command: `" ++ String.singleton c ++ "'")

/-- Reads commands. The fuel bounds their number. -/
def commands (isExtended : Bool) : Nat → Reader Unit
  | 0 => return
  | fuel + 1 => do
    skipSpaces
    if (← get).rest.isEmpty then return
    if ← reads '#' then
      let _ ← takeWhile (· ≠ '\n')
      commands isExtended fuel
    else
      let first ← address? isExtended
      if first.isSome then skipBlanks
      let stop ← if first.isSome then
          if ← reads ',' then
            skipBlanks
            let stop ← stop? isExtended
            if stop.isNone then
              skip 1
              fault "unexpected `,'"
            pure stop
          else pure none
        else pure none
      let isZero := match first with
        | some (.line 0) => true
        | _ => false
      if isZero && !(stop matches some (.at (.sought _))) then
        skipBlanks
        skip 1
        fault "invalid usage of line address 0"
      skipBlanks
      let isNegated ← reads '!'
      if isNegated then
        skipBlanks
        if ← reads '!' then fault "multiple `!'s"
      skipBlanks
      match ← next? with
      | none => fault "missing command"
      | some letter =>
        if letter = '\n' || letter = ';' then fault "missing command"
        if letter = '#' then fault "comments don't accept any addresses"
        if stop.isSome && letter ∈ ['q', 'Q'] then
          fault "command only uses one address"
        let place := (← get).commands.size
        if letter = '\x7b' then
          modify fun r => { r with commands := r.commands.push ⟨first, stop, isNegated, .block 0⟩ }
          modify fun r => { r with opened := place :: r.opened }
        else
          let action ← action isExtended letter first.isSome
          modify fun r => { r with commands := r.commands.push ⟨first, stop, isNegated, action⟩ }
        commands isExtended fuel

end Reader

/-- The start of a reading. -/
def Reading.start : Reading := ⟨[], #[], [], []⟩

/-- Reads one more text of commands. -/
def Reading.add (r : Reading) (isExtended : Bool) (text : List Char) : Except ScriptFault Reading := do
  let ((), r) ← (Reader.commands isExtended (text.length + 1)).run { r with rest := text }
  return r

/-- The script, once all texts are read. -/
def Reading.script (r : Reading) (isQuiet : Bool) : Except ScriptFault Script :=
  if !r.opened.isEmpty then .error ⟨"unmatched `\x7b'", none⟩
  else .ok ⟨r.commands, r.labels, isQuiet⟩

end PluginHost.Utility.Sed
