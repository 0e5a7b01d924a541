import PluginHost.Shell.Syntax
/-!
Reading the text of a script: its tokens, the place that was reached, what is still to come, and its words.

A word is read in one of two ways. Outside double quotes every quote counts, and a blank or operator
ends it. Inside them only dollar signs, backquotes and some backslashes count; so it is in texts that
stand in the script and in expressions too.
-/

namespace PluginHost.Shell

/-- Why a text is no script, and on which line that shows. -/
structure SyntaxFault where
  line : Nat
  message : String
deriving DecidableEq, Inhabited

/-- What a redirection does with the word behind it. -/
inductive RedirectKind where
  | file (opening : Opening)
  | copy
  /-- A text in the script, up to a line with the word. Tabs at the start of lines may not count. -/
  | document (isIndented : Bool)
deriving DecidableEq, Inhabited

inductive Token where
  | endOfFile
  | newline
  | redirect (descriptor : Nat) (kind : RedirectKind)
  | word (parts : Word) (isQuoted : Bool)
  /-- An operator. -/
  | mark (text : String)
  /-- A word of the language. -/
  | keyword (text : String)
deriving Inhabited

def keywords : List String :=
  ["!", "case", "do", "done", "elif", "else", "esac", "fi", "for", "if", "in", "then", "until",
   "while", "\x7b", "\x7d"]

/-- How messages call a token. -/
def Token.display : Token → String
  | endOfFile => "end of file"
  | newline => "newline"
  | redirect _ _ => "redirection"
  | word _ _ => "word"
  | mark text | keyword text => "\"" ++ text ++ "\""

/-- Whether a list of commands may end before a token. -/
def Token.endsList : Token → Bool
  | endOfFile => true
  | mark text => text ∈ [")", ";;"]
  | keyword text => text ∈ ["do", "done", "elif", "else", "esac", "fi", "then", "\x7d"]
  | _ => false

/-- A text in the script that is still to be read. -/
structure AwaitedDocument where
  index : Nat
  lastLine : List Char
  isIndented : Bool
  isQuoted : Bool

/-- A script that has been read up to some place. -/
structure Source where
  rest : List Char
  line : Nat
  /-- The token that was read last. -/
  last : Token
  /-- Whether that token is to be read again. -/
  isPutBack : Bool
  awaited : List AwaitedDocument
  /-- Texts in the script that were read, and how many there are with those of other scripts. -/
  documents : List (Nat × Word)
  nextDocument : Nat
  /-- Texts that stand for words at the start of commands. -/
  aliases : List (String × String)
  /-- Those that were put in place of a word, and how much of the script is left behind them. -/
  inUse : List (String × Nat)
  /-- Where a word may be such a text too because the one before it ended with a blank. -/
  aliasesBehind : Option Nat
deriving Inhabited

def Source.ofText (text : List Char) (nextDocument : Nat) (aliases : List (String × String)) :
    Source :=
  ⟨text, 1, .newline, false, [], [], nextDocument, aliases, [], none⟩

abbrev Parse (α : Type) := StateT Source (Except SyntaxFault) α

namespace Parse

def fail {α : Type} (message : String) : Parse α := do
  throw ⟨(← get).line, message⟩

/-- Complains about the token that was read last. -/
def unexpected {α : Type} (expected : Option Token) : Parse α := do
  let expecting := match expected with
    | some t => " (expecting " ++ t.display ++ ")"
    | none => ""
  fail ((← get).last.display ++ " unexpected" ++ expecting)

/-- The text behind backslashes that join lines, and how many lines that makes. -/
def skipJoined : List Char → Nat → List Char × Nat
  | '\\' :: '\n' :: rest, line => skipJoined rest (line + 1)
  | text, line => (text, line)

/-- The next character, before which lines are joined. It stays. -/
def peek? : Parse (Option Char) := fun s =>
  let (rest, line) := skipJoined s.rest s.line
  .ok (rest.head?, { s with rest, line })

/-- Takes the next character as it stands. -/
def takeRaw? : Parse (Option Char) := fun s =>
  match s.rest with
  | [] => .ok (none, s)
  | c :: rest => .ok (some c, { s with rest, line := if c = '\n' then s.line + 1 else s.line })

/-- Takes the character that was seen. -/
def skip : Parse Unit := fun s =>
  match s.rest with
  | [] => .ok ((), s)
  | c :: rest => .ok ((), { s with rest, line := if c = '\n' then s.line + 1 else s.line })

/-- Takes the next character, before which lines are joined. -/
def take? : Parse (Option Char) := do
  let c ← peek?
  skip
  return c

/-- Takes a character if it comes next. -/
def takeIf (c : Char) : Parse Bool := do
  if (← peek?) = some c then
    skip
    return true
  else return false

end Parse

/-- A word under construction, the newest part first. -/
structure WordBuilder where
  parts : List Part
  /-- The text that may go on, the newest character first. -/
  chars : List Char
  isQuoted : Bool
deriving Inhabited

namespace WordBuilder

def start : WordBuilder := ⟨[], [], false⟩

/-- Ends the text. -/
def flush (b : WordBuilder) : WordBuilder :=
  if b.chars.isEmpty then b else ⟨.text b.chars.reverse b.isQuoted :: b.parts, [], false⟩

def char (b : WordBuilder) (c : Char) (isQuoted : Bool) : WordBuilder :=
  if b.chars.isEmpty || b.isQuoted == isQuoted then { b with chars := c :: b.chars, isQuoted }
  else { b.flush with chars := [c], isQuoted }

def part (b : WordBuilder) (p : Part) : WordBuilder :=
  let b := b.flush
  { b with parts := p :: b.parts }

def word (b : WordBuilder) : Word := b.flush.parts.reverse

end WordBuilder

/-! Words. -/

def backquote : Char := Char.ofNat 0x60

/-- Parameters whose name is one character. -/
def isSpecial (c : Char) : Bool := c.isDigit || c ∈ ['@', '*', '#', '?', '$', '!', '-']

/-- The characters that end a word. -/
def isSeparator (c : Char) : Bool := c ∈ [' ', '\t', '\n', ';', '&', '|', '(', ')', '<', '>']

/-- What ends a text in which only dollar signs and the like count. -/
inductive Extent where
  /-- A quote. The text may stand between braces or in a text of the script. -/
  | quotes (inBraces inDocument : Bool)
  | braces (inDocument : Bool)
  | document
  /-- Two parentheses, when so many are closed. -/
  | expression (depth : Nat)
deriving DecidableEq, Inhabited

namespace Extent

def inBraces : Extent → Bool
  | quotes inBraces _ => inBraces
  | braces _ => true
  | _ => false

def inDocument : Extent → Bool
  | quotes _ inDocument | braces inDocument => inDocument
  | document => true
  | expression _ => false

/-- Whether a backslash makes a character stand for itself. -/
def isEscapable (e : Extent) (c : Char) : Bool :=
  c = '\\' || c = backquote || c = '$' || (c = '"' && (!e.inDocument || e.inBraces)) ||
    (c = '\x7d' && e.inBraces)

end Extent

/-- What ends a text in which all quotes count. -/
inductive WordEnd where
  /-- A blank or operator. Dollar signs may stand for themselves. -/
  | separator (isDelimiter : Bool)
  | brace
deriving DecidableEq, Inhabited

namespace Parse

/-- The characters up to a single quote. -/
def singleQuoted : Nat → List Char → Parse (List Char)
  | 0, _ => fail "Unterminated quoted string"
  | fuel + 1, chars => do
    match ← takeRaw? with
    | none => fail "Unterminated quoted string"
    | some '\'' => return chars.reverse
    | some c => singleQuoted fuel (c :: chars)

/-- The text up to a double quote, with dollar signs and backquotes as they stand. -/
def literalQuoted : Nat → List Char → Parse (List Char)
  | 0, _ => fail "Unterminated quoted string"
  | fuel + 1, chars => do
    match ← take? with
    | none => fail "Unterminated quoted string"
    | some '"' => return chars.reverse
    | some '\\' =>
      match ← takeRaw? with
      | none => fail "Unterminated quoted string"
      | some c =>
        let isEscaped := c = '\\' || c = backquote || c = '$' || c = '"'
        literalQuoted fuel (if isEscaped then c :: chars else c :: '\\' :: chars)
    | some c => literalQuoted fuel (c :: chars)

/-- The script up to a backquote; some backslashes belong to the quotes. -/
def backquoted : Nat → Bool → List Char → Parse (List Char)
  | 0, _, _ => fail "EOF in backquote substitution"
  | fuel + 1, inQuotes, chars => do
    match ← take? with
    | none => fail "EOF in backquote substitution"
    | some '\\' =>
      match ← takeRaw? with
      | none => fail "EOF in backquote substitution"
      | some c =>
        let isEscaped := c = '\\' || c = backquote || c = '$' || (inQuotes && c = '"')
        backquoted fuel inQuotes (if isEscaped then c :: chars else c :: '\\' :: chars)
    | some c => if c = backquote then return chars.reverse else backquoted fuel inQuotes (c :: chars)

/-- The characters of a name or number that goes on. -/
def charsWhile (isPart : Char → Bool) : Nat → List Char → Parse (List Char)
  | 0, chars => return chars.reverse
  | fuel + 1, chars => do
    match ← peek? with
    | some c =>
      if isPart c then
        skip
        charsWhile isPart fuel (c :: chars)
      else return chars.reverse
    | none => return chars.reverse

/-- Reads another text with the same reader and goes on where the text began. -/
def within {α : Type} (text : List Char) (read : Parse α) : Parse α := do
  let before ← get
  set { before with rest := text, line := 1, isPutBack := false, awaited := [] }
  let a ← read
  modify fun s => { s with
    rest := before.rest, line := before.line, last := before.last, isPutBack := before.isPutBack,
    awaited := before.awaited }
  return a

/-- The name of a parameter in braces, and whether its length is asked for. -/
def bracedName : Parse (Option (List Char) × Bool) := do
  let length := (← get).rest.length
  let nameAt : Parse (List Char) := do
    match ← peek? with
    | some c =>
      if isNameStart c then charsWhile isNameChar length []
      else if c.isDigit then charsWhile Char.isDigit length []
      else return []
    | none => return []
  let name ← nameAt
  if !name.isEmpty then return (some name, false)
  match ← peek? with
  | some '#' =>
    skip
    let name ← nameAt
    if !name.isEmpty then return (some name, true)
    match ← peek? with
    | some c =>
      -- a special parameter has a length only if the brace is closed behind it
      if isSpecial c && c ≠ '\x7d' then
        let before ← get
        skip
        if (← peek?) = some '\x7d' then return (some [c], true)
        set before
        return (some ['#'], false)
      else return (some ['#'], false)
    | none => return (some ['#'], false)
  | some c =>
    if isSpecial c then
      skip
      return (some [c], false)
    else return (none, false)
  | none => return (none, false)

mutual

/-- What a dollar sign makes of the text behind it. `sub` reads the commands between parentheses. The
    fuel bounds the parts; the same holds below. -/
def dollar (sub : Parse Command) : Nat → Option Extent → Parse Part
  | 0, _ => fail "Unterminated quoted string"
  | fuel + 1, extent => do
    match ← peek? with
    | some '(' =>
      skip
      if ← takeIf '(' then
        return .number (← double sub fuel (.expression 0) .start)
      else
        let before ← get
        set { before with isPutBack := false, awaited := [] }
        let body ← sub
        match (← get).last with
        | .mark ")" => pure ()
        | _ => unexpected (some (.mark ")"))
        modify fun s => { s with last := before.last, isPutBack := false, awaited := before.awaited }
        return .output body
    | some '\x7b' =>
      skip
      braced sub fuel extent
    | some c =>
      if isNameStart c then
        let name ← charsWhile isNameChar (← get).rest.length []
        return .parameter (String.ofList name) .plain
      else if isSpecial c then
        skip
        return .parameter (String.singleton c) .plain
      else return .text ['$'] extent.isSome
    | none => return .text ['$'] extent.isSome

/-- A parameter in braces. -/
def braced (sub : Parse Command) : Nat → Option Extent → Parse Part
  | 0, _ => fail "Missing '\x7d'"
  | fuel + 1, extent => do
    let inDocument := extent.any Extent.inDocument
    let argument : Parse Word :=
      match extent with
      | none => plain sub fuel .brace .start
      | some _ => double sub fuel (.braces inDocument) .start
    let pattern : Parse Word := plain sub fuel .brace .start
    let unknown : Parse Part := do
      let _ ← argument
      return .parameter "" .unknown
    match ← bracedName with
    | (none, _) => unknown
    | (some name, true) =>
      if ← takeIf '\x7d' then return .parameter (String.ofList name) .length else unknown
    | (some name, false) =>
      let name := String.ofList name
      if ← takeIf '\x7d' then return .parameter name .plain
      let emptyToo ← takeIf ':'
      match ← peek? with
      | some '-' =>
        skip
        return .parameter name (.orElse emptyToo (← argument))
      | some '=' =>
        skip
        return .parameter name (.assign emptyToo (← argument))
      | some '+' =>
        skip
        return .parameter name (.alternative emptyToo (← argument))
      | some '?' =>
        skip
        return .parameter name (.require emptyToo (← argument))
      | some '#' =>
        if emptyToo then unknown
        else
          skip
          let isLongest ← takeIf '#'
          return .parameter name (.trimStart isLongest (← pattern))
      | some '%' =>
        if emptyToo then unknown
        else
          skip
          let isLongest ← takeIf '%'
          return .parameter name (.trimEnd isLongest (← pattern))
      | _ =>
        skip
        unknown

/-- A text in which only dollar signs and the like count. -/
def double (sub : Parse Command) : Nat → Extent → WordBuilder → Parse Word
  | 0, _, _ => fail "Unterminated quoted string"
  | fuel + 1, extent, b => do
    match ← peek? with
    | none =>
      match extent with
      | .document => return b.word
      | .expression _ => fail "Missing '))'"
      | .braces true | .quotes _ true => fail "Missing '\x7d'"
      | _ => fail "Unterminated quoted string"
    | some c =>
      skip
      let goOn := fun (c : Char) => double sub fuel extent (b.char c true)
      if c = '\\' then
        match ← takeRaw? with
        | none => goOn '\\'
        | some e =>
          if extent.isEscapable e then goOn e
          else double sub fuel extent ((b.char '\\' true).char e true)
      else if c = '$' then
        let part ← dollar sub fuel (some extent)
        double sub fuel extent (match part with
          | .text chars _ => chars.foldl (fun b c => b.char c true) b
          | part => b.part part)
      else if c = backquote then
        let script ← backquoted (← get).rest.length true []
        let body ← within script sub
        double sub fuel extent (b.part (.output body))
      else
        match extent, c with
        | .quotes _ _, '"' => return b.word
        | .braces inDocument, '"' =>
          let inside ← double sub fuel (.quotes true inDocument) .start
          double sub fuel extent (b.part (.quotes inside))
        | .braces _, '\x7d' => return b.word
        | .expression depth, '(' => double sub fuel (.expression (depth + 1)) (b.char c true)
        | .expression (depth + 1), ')' => double sub fuel (.expression depth) (b.char c true)
        | .expression 0, ')' => if ← takeIf ')' then return b.word else goOn c
        | _, _ => goOn c

/-- A text in which all quotes count. -/
def plain (sub : Parse Command) : Nat → WordEnd → WordBuilder → Parse Word
  | 0, _, _ => fail "Unterminated quoted string"
  | fuel + 1, wordEnd, b => do
    match ← peek? with
    | none => if wordEnd = .brace then fail "Missing '\x7d'" else return b.word
    | some c =>
      match wordEnd with
      | .separator isDelimiter =>
        if isSeparator c then return b.word
        else
          skip
          quoting sub fuel wordEnd b c isDelimiter
      | .brace =>
        skip
        if c = '\x7d' then return b.word else quoting sub fuel wordEnd b c false

/-- Goes on behind a character that may be a quote. -/
def quoting (sub : Parse Command) : Nat → WordEnd → WordBuilder → Char → Bool → Parse Word
  | 0, _, _, _, _ => fail "Unterminated quoted string"
  | fuel + 1, wordEnd, b, c, isDelimiter => do
    if c = '\'' then
      let inside ← singleQuoted ((← get).rest.length + 1) []
      plain sub fuel wordEnd (b.part (.quotes (if inside.isEmpty then [] else [.text inside true])))
    else if c = '"' && isDelimiter then
      let inside ← literalQuoted ((← get).rest.length + 1) []
      plain sub fuel wordEnd (b.part (.quotes (if inside.isEmpty then [] else [.text inside true])))
    else if c = '"' then
      let inside ← double sub fuel (.quotes (wordEnd = .brace) false) .start
      plain sub fuel wordEnd (b.part (.quotes inside))
    else if c = '\\' then
      match ← takeRaw? with
      | none => plain sub fuel wordEnd (b.char '\\' true)
      | some e => plain sub fuel wordEnd (b.char e true)
    else if c = '$' && !isDelimiter then
      let part ← dollar sub fuel none
      plain sub fuel wordEnd (match part with
        | .text chars isQuoted => chars.foldl (fun b c => b.char c isQuoted) b
        | part => b.part part)
    else if c = backquote && !isDelimiter then
      let script ← backquoted (← get).rest.length false []
      let body ← within script sub
      plain sub fuel wordEnd (b.part (.output body))
    else plain sub fuel wordEnd (b.char c false)

end

end Parse

/-- Whether something in a word is quoted. -/
def Word.hasQuotes (w : Word) : Bool :=
  w.any fun part => match part with
    | .quotes _ | .text _ true => true
    | _ => false

/-- The characters of a word as they stand, without the quotes. -/
def Word.characters (w : Word) : List Char :=
  w.flatMap fun part => match part with
    | .text chars _ => chars
    | .quotes inside => inside.flatMap fun part => match part with
      | .text chars _ => chars
      | _ => []
    | _ => []

end PluginHost.Shell
