import PluginHost.Binary64.Basic
import PluginHost.Regex.Basic
import PluginHost.Text.Escape
import PluginHost.Text.Real
/-!
Programs that deal with records and their fields: patterns, statements and expressions, and the parts of such
programs as they are written.
-/

namespace PluginHost.Utility.Awk

inductive Operator where
  | add
  | subtract
  | multiply
  | divide
  | remainder
  | power
deriving DecidableEq, Inhabited

inductive Comparison where
  | less
  | atMost
  | equal
  | different
  | greater
  | atLeast
deriving DecidableEq, Inhabited

inductive Expr where
  | number (x : Float)
  | text (s : String)
  /-- Whether the record matches. -/
  | regex (r : Regex)
  | name (n : String)
  | element (array : String) (subscripts : List Expr)
  | field (e : Expr)
  | assign (operator : Option Operator) (target value : Expr)
  | choose (condition a b : Expr)
  | both (a b : Expr)
  | either (a b : Expr)
  | isIn (subscripts : List Expr) (array : String)
  | isMatch (isNegated : Bool) (a b : Expr)
  | compare (c : Comparison) (a b : Expr)
  | concat (a b : Expr)
  | calculate (operator : Operator) (a b : Expr)
  | negate (e : Expr)
  | plus (e : Expr)
  | invert (e : Expr)
  /-- A target goes up or down by one, before or after its value is taken. -/
  | step (isBefore isUp : Bool) (target : Expr)
  | call (function : String) (arguments : List Expr)
  | builtin (function : String) (arguments : List Expr)
  | readMain (target : Option Expr)
  | readFile (target : Option Expr) (path : Expr)
  | readCommand (command : Expr) (target : Option Expr)
  /-- Several expressions in parentheses. -/
  | group (es : List Expr)
deriving Inhabited

/-- Where output goes. -/
inductive Sink where
  | file
  | append
  | command
deriving DecidableEq, Inhabited

inductive Statement where
  | expr (e : Expr)
  | print (arguments : List Expr) (sink : Option (Sink × Expr))
  | printf (arguments : List Expr) (sink : Option (Sink × Expr))
  | choose (condition : Expr) (a : Statement) (b : Option Statement)
  | while (condition : Expr) (body : Statement)
  | doWhile (body : Statement) (condition : Expr)
  | for (start : Option Statement) (condition : Option Expr) (step : Option Statement)
    (body : Statement)
  | forIn (name array : String) (body : Statement)
  | block (statements : List Statement)
  | next
  | exit (e : Option Expr)
  | give (e : Option Expr)
  | break
  | continue
  | delete (array : String) (subscripts : Option (List Expr))
deriving Inhabited

/-- When an action is carried out. -/
inductive Pattern where
  | begin
  | end
  | always
  | when (e : Expr)
  | range (first last : Expr)
deriving Inhabited

structure Rule where
  pattern : Pattern
  /-- Without an action the record is printed. -/
  body : Option Statement
deriving Inhabited

structure Function where
  name : String
  parameters : List String
  body : Statement
deriving Inhabited

structure Script where
  rules : List Rule
  functions : List Function
deriving Inhabited

/-! Parts as they are written: names, numbers, texts, expressions between slashes, and signs. -/

inductive Token where
  | number (x : Float)
  | text (s : String)
  | regex (s : List Char)
  | name (s : String)
  /-- A name with a parenthesis right behind it. -/
  | call (s : String)
  | builtin (s : String)
  | keyword (s : String)
  | sign (s : String)
  | newline
deriving Inhabited

namespace Token

def keywords : List String :=
  ["BEGIN", "END", "function", "func", "if", "else", "while", "for", "do", "break", "continue", "next",
   "nextfile", "exit", "return", "delete", "in", "getline", "print", "printf"]

def builtins : List String :=
  ["length", "substr", "index", "split", "sub", "gsub", "match", "sprintf", "sin", "cos", "atan2",
   "exp","log", "sqrt", "int", "rand", "srand", "tolower", "toupper", "system", "close", "fflush"]

/-- Signs with more than one character, the longest first. -/
def longSigns : List String :=
  ["&&", "||", "++", "--", "+=", "-=", "*=", "/=", "%=", "^=", "==", "<=", ">=", "!=", "!~", ">>"]

/-- How a token is shown in messages. -/
def display : Token → String
  | number _ => "number"
  | text s => "\"" ++ s ++ "\""
  | regex s => "/" ++ String.ofList s ++ "/"
  | name s | call s | builtin s | keyword s | sign s => s
  | newline => "end of line"

/-- Whether a slash behind a token divides. -/
def endsOperand : Token → Bool
  | number _ | text _ | regex _ | name _ | builtin _ => true
  | sign s => s ∈ [")", "]", "$", "++", "--"]
  | _ => false

/-- A text up to its closing quote, the newest character first in what was read. The fuel bounds the
    characters. -/
def takeText : Nat → List Char → List Char → Option (String × List Char)
  | 0, _, _ => none
  | fuel + 1, done, s =>
    match s with
    | [] | '\n' :: _ => none
    | '"' :: rest => some (String.ofList done.reverse, rest)
    | '\\' :: '\n' :: rest => takeText fuel done rest
    | '\\' :: '"' :: rest => takeText fuel ('"' :: done) rest
    | '\\' :: c :: rest =>
      if Text.isOctal c then
        let (e, rest) := Text.takeOctal 3 (c :: rest)
        takeText fuel (e :: done) rest
      else if c = 'e' then takeText fuel (c :: '\\' :: done) rest
      else
        match (if c = 'x' then Text.takeCoded (c :: rest) else none), Text.escape? c with
        | some (e, rest), _ => takeText fuel (e :: done) rest
        | none, some e => takeText fuel (e :: done) rest
        | none, none => takeText fuel (c :: '\\' :: done) rest
    | c :: rest => takeText fuel (c :: done) rest

/-- An expression up to its closing slash, which does not close between brackets. -/
def takeRegex : Bool → List Char → List Char → Option (List Char × List Char)
  | _, _, [] | _, _, '\n' :: _ => none
  | inSet, done, '\\' :: '/' :: rest => takeRegex inSet ('/' :: done) rest
  | inSet, done, '\\' :: c :: rest => takeRegex inSet (c :: '\\' :: done) rest
  | inSet, done, c :: rest =>
    if c = '/' && !inSet then some (done.reverse, rest)
    else if c = '[' && !inSet then
      match rest with
      | ']' :: rest => takeRegex true (']' :: c :: done) rest
      | '^' :: ']' :: rest => takeRegex true (']' :: '^' :: c :: done) rest
      | rest => takeRegex true (c :: done) rest
    else takeRegex (inSet && c ≠ ']') (c :: done) rest

def isNameStart (c : Char) : Bool := c.isAlpha || c = '_'

/-- A number in decimal form. -/
def takeNumber (s : List Char) : Option (Float × List Char) :=
  match Text.takePointed 10 s with
  | none => none
  | some (n, places, rest) =>
    let (e, rest) := Text.takeExponent (fun c => c = 'e' || c = 'E') rest
    some ((Binary64.ofDecimal false n (e - places)).toFloat, rest)

/-- The tokens of a text, each with its line. The fuel bounds the characters. -/
def scan : Nat → Nat → Option Token → List Char → Except String (List (Token × Nat))
  | 0, _, _, _ => .ok []
  | _, _, _, [] => .ok []
  | fuel + 1, line, last, c :: rest => do
    let go := fun (t : Token) (rest : List Char) => do
      return (t, line) :: (← scan fuel line (some t) rest)
    match c, rest with
    | '\n', _ => return (.newline, line) :: (← scan fuel (line + 1) (some .newline) rest)
    | '\\', '\n' :: rest => scan fuel (line + 1) last rest
    | '\\', '\r' :: '\n' :: rest => scan fuel (line + 1) last rest
    | '#', _ => scan fuel line last (rest.dropWhile (· ≠ '\n'))
    | '"', _ =>
      match takeText (rest.length + 1) [] rest with
      | some (s, rest) => go (.text s) rest
      | none =>
        throw ("line " ++ toString line ++ ": runaway string constant \"" ++
          String.ofList (rest.take 10) ++ " ...")
    | c, rest =>
      if c = ' ' || c = '\t' || c = '\r' then scan fuel line last rest
      else if isNameStart c then
        let s := (c :: rest).takeWhile fun c => c.isAlphanum || c = '_'
        let rest := rest.drop (s.length - 1)
        let s := String.ofList s
        if keywords.contains s then go (.keyword s) rest
        else if builtins.contains s then go (.builtin s) rest
        else if rest.head? = some '(' then go (.call s) rest
        else go (.name s) rest
      else if c.isDigit || (c = '.' && rest.head?.any Char.isDigit) then
        match takeNumber (c :: rest) with
        | some (x, rest) => go (.number x) rest
        | none => go (.sign ".") rest
      else if c = '/' && !(last.any endsOperand) then
        match takeRegex false [] rest with
        | some (s, rest) => go (.regex s) rest
        | none =>
          throw ("line " ++ toString line ++ ": runaway regular expression /" ++
            String.ofList (rest.take 10) ++ " ...")
      else
        match longSigns.find? fun s => s.toList.isPrefixOf (c :: rest) with
        | some s => go (.sign s) (rest.drop 1)
        | none =>
          if c ∈ "\x7b\x7d()[];,+-*/%^!><|?:~$=".toList then go (.sign (String.singleton c)) rest
          else throw (toString line ++ ": unexpected character '" ++ String.singleton c ++ "'")

end Token

end PluginHost.Utility.Awk
