import PluginHost.Regex.Reader
import PluginHost.Utility.Awk.Syntax
/-!
Programs as tokens.
-/

namespace PluginHost.Utility.Awk

abbrev Parse (α : Type) := StateT (List (Token × Nat)) (Except String) α

/-- What may stand within an expression. -/
structure Within where
  /-- Whether `in` is an operator. -/
  hasIn : Bool
  /-- Whether the greater sign compares. -/
  hasGreater : Bool

namespace Parse

def inner : Within := ⟨true, true⟩

def peek? : Parse (Option Token) := return (← get).head?.map (·.1)

def skip : Parse Unit := modify (·.drop 1)

def fault {α : Type} : Parse α := do
  match ← get with
  | (t, line) :: _ => throw ("line " ++ toString line ++ ": syntax error at or near " ++ t.display)
  | [] => throw "line 1: syntax error at or near end of line"

def isSign (s : String) : Parse Bool := do
  match ← peek? with
  | some (.sign t) => return t = s
  | _ => return false

def isKeyword (s : String) : Parse Bool := do
  match ← peek? with
  | some (.keyword t) => return t = s
  | _ => return false

/-- Reads a sign if it is next. -/
def reads (s : String) : Parse Bool := do
  if ← isSign s then
    skip
    return true
  else return false

def expect (s : String) : Parse Unit := do
  if !(← reads s) then fault

def readsKeyword (s : String) : Parse Bool := do
  if ← isKeyword s then
    skip
    return true
  else return false

/-- Leaves ends of lines out. The fuel bounds them. -/
def skipLinesWithin : Nat → Parse Unit
  | 0 => return
  | fuel + 1 => do
    match ← peek? with
    | some .newline =>
      skip
      skipLinesWithin fuel
    | _ => return

def skipLines : Parse Unit := do skipLinesWithin ((← get).length + 1)

/-- The expression that a text between slashes writes. -/
def regexOf (s : List Char) : Parse Regex := do
  match Regex.ofText ⟨true, true, true, true⟩ s with
  | .ok r => return r
  | .error f =>
    let line := ((← get).head?.map (·.2)).getD 1
    throw ("line " ++ toString line ++ ": regular expression compile failed (" ++ f.message ++ ")\n" ++
      String.ofList s)

/-- Whether something can be assigned to an expression. -/
def isTarget : Expr → Bool
  | .name _ | .element _ _ | .field _ => true
  | _ => false

def operatorOf : String → Option Operator
  | "+" | "+=" => some .add
  | "-" | "-=" => some .subtract
  | "*" | "*=" => some .multiply
  | "/" | "/=" => some .divide
  | "%" | "%=" => some .remainder
  | "^" | "^=" => some .power
  | _ => none

def comparisonOf : String → Option Comparison
  | "<" => some .less
  | "<=" => some .atMost
  | "==" => some .equal
  | "!=" => some .different
  | ">" => some .greater
  | ">=" => some .atLeast
  | _ => none

/-- Whether an operand can begin with a token. -/
def startsOperand : Token → Bool
  | .number _ | .text _ | .regex _ | .name _ | .call _ | .builtin _ => true
  | .sign s => s ∈ ["$", "(", "++", "--", "!"]
  | .keyword s => s = "getline"
  | _ => false

mutual

/-- An expression. The fuel bounds the tokens; the same holds below. -/
def expression : Nat → Within → Parse Expr
  | 0, _ => fault
  | fuel + 1, w => do
    let a ← conditional fuel w
    if !isTarget a then return a
    match ← peek? with
    | some (.sign "=") =>
      skip
      return .assign none a (← expression fuel w)
    | some (.sign s) =>
      if s ∈ ["+=", "-=", "*=", "/=", "%=", "^="] then
        skip
        return .assign (operatorOf s) a (← expression fuel w)
      else return a
    | _ => return a

def conditional : Nat → Within → Parse Expr
  | 0, _ => fault
  | fuel + 1, w => do
    let c ← disjunction fuel w
    if ← reads "?" then
      skipLines
      let a ← expression fuel w
      skipLines
      expect ":"
      skipLines
      return .choose c a (← expression fuel w)
    else return c

def disjunction : Nat → Within → Parse Expr
  | 0, _ => fault
  | fuel + 1, w => do
    let a ← conjunction fuel w
    if ← reads "||" then
      skipLines
      return .either a (← disjunction fuel w)
    else return a

def conjunction : Nat → Within → Parse Expr
  | 0, _ => fault
  | fuel + 1, w => do
    let a ← membership fuel w
    if ← reads "&&" then
      skipLines
      return .both a (← conjunction fuel w)
    else return a

def membership : Nat → Within → Parse Expr
  | 0, _ => fault
  | fuel + 1, w => do memberships fuel w (← matching fuel w)

def memberships : Nat → Within → Expr → Parse Expr
  | 0, _, a => return a
  | fuel + 1, w, a => do
    if w.hasIn && (← isKeyword "in") then
      skip
      match ← peek?, a with
      | some (.name array), .group es =>
        skip
        memberships fuel w (.isIn es array)
      | some (.name array), a =>
        skip
        memberships fuel w (.isIn [a] array)
      | _, _ => fault
    else return a

def matching : Nat → Within → Parse Expr
  | 0, _ => fault
  | fuel + 1, w => do matchings fuel w (← comparison fuel w)

def matchings : Nat → Within → Expr → Parse Expr
  | 0, _, a => return a
  | fuel + 1, w, a => do
    if ← reads "~" then matchings fuel w (.isMatch false a (← comparison fuel w))
    else if ← reads "!~" then matchings fuel w (.isMatch true a (← comparison fuel w))
    else return a

def comparison : Nat → Within → Parse Expr
  | 0, _ => fault
  | fuel + 1, w => do comparisons fuel w (← concatenation fuel)

def comparisons : Nat → Within → Expr → Parse Expr
  | 0, _, a => return a
  | fuel + 1, w, a => do
    match ← peek? with
    | some (.sign s) =>
      match comparisonOf s with
      | some c =>
        if s = ">" && !w.hasGreater then return a
        skip
        comparisons fuel w (.compare c a (← concatenation fuel))
      | none => return a
    | _ => return a

def concatenation : Nat → Parse Expr
  | 0 => fault
  | fuel + 1 => do concatenations fuel (← sum fuel)

def concatenations : Nat → Expr → Parse Expr
  | 0, a => return a
  | fuel + 1, a => do
    if (← peek?).any startsOperand then concatenations fuel (.concat a (← sum fuel))
    else return a

def sum : Nat → Parse Expr
  | 0 => fault
  | fuel + 1 => do sums fuel (← product fuel)

def sums : Nat → Expr → Parse Expr
  | 0, a => return a
  | fuel + 1, a => do
    if ← reads "+" then sums fuel (.calculate .add a (← product fuel))
    else if ← reads "-" then sums fuel (.calculate .subtract a (← product fuel))
    else return a

def product : Nat → Parse Expr
  | 0 => fault
  | fuel + 1 => do products fuel (← unary fuel)

def products : Nat → Expr → Parse Expr
  | 0, a => return a
  | fuel + 1, a => do
    if ← reads "*" then products fuel (.calculate .multiply a (← unary fuel))
    else if ← reads "/" then products fuel (.calculate .divide a (← unary fuel))
    else if ← reads "%" then products fuel (.calculate .remainder a (← unary fuel))
    else return a

def unary : Nat → Parse Expr
  | 0 => fault
  | fuel + 1 => do
    if ← reads "!" then return .invert (← unary fuel)
    else if ← reads "-" then return .negate (← unary fuel)
    else if ← reads "+" then return .plus (← unary fuel)
    else commands fuel (← power fuel)

/-- Reading from commands that expressions name. -/
def commands : Nat → Expr → Parse Expr
  | 0, a => return a
  | fuel + 1, a => do
    match ← get with
    | (.sign "|", _) :: (.keyword "getline", _) :: rest =>
      set rest
      commands fuel (.readCommand a (← target? fuel))
    | _ => return a

def power : Nat → Parse Expr
  | 0 => fault
  | fuel + 1 => do
    let a ← postfixed fuel
    if ← reads "^" then
      if (← isSign "-") || (← isSign "+") || (← isSign "!") then
        return .calculate .power a (← unary fuel)
      else return .calculate .power a (← power fuel)
    else return a

def postfixed : Nat → Parse Expr
  | 0 => fault
  | fuel + 1 => do
    if ← reads "++" then return .step true true (← operand fuel)
    if ← reads "--" then return .step true false (← operand fuel)
    let a ← operand fuel
    if isTarget a then
      if ← reads "++" then return .step false true a
      if ← reads "--" then return .step false false a
    return a

/-- What a value that is read goes to, if that is told. -/
def target? : Nat → Parse (Option Expr)
  | 0 => return none
  | fuel + 1 => do
    match ← peek? with
    | some (.name _) | some (.sign "$") => return some (← operand fuel)
    | _ => return none

def operand : Nat → Parse Expr
  | 0 => fault
  | fuel + 1 => do
    match ← peek? with
    | some (.number x) =>
      skip
      return .number x
    | some (.text s) =>
      skip
      return .text s
    | some (.regex s) =>
      skip
      return .regex (← regexOf s)
    | some (.sign "$") =>
      skip
      if ← reads "++" then return .field (.step true true (← operand fuel))
      if ← reads "--" then return .field (.step true false (← operand fuel))
      if ← reads "-" then return .field (.negate (← operand fuel))
      return .field (← operand fuel)
    | some (.sign "(") =>
      skip
      let es ← list fuel inner
      expect ")"
      match es with
      | [e] =>
        /- what stands in parentheses cannot be assigned to -/
        return if isTarget e then .group [e] else e
      | es => return .group es
    | some (.name n) =>
      skip
      if ← reads "[" then
        let es ← list fuel inner
        expect "]"
        return .element n es
      else return .name n
    | some (.call f) =>
      skip
      expect "("
      let es ← arguments fuel
      return .call f es
    | some (.builtin f) =>
      skip
      if ← reads "(" then return .builtin f (← arguments fuel)
      else if f = "length" then return .builtin f []
      else fault
    | some (.keyword "getline") =>
      skip
      let target ← target? fuel
      if ← reads "<" then return .readFile target (← operand fuel)
      else return .readMain target
    | _ => fault

/-- Expressions with commas between them. -/
def list : Nat → Within → Parse (List Expr)
  | 0, _ => fault
  | fuel + 1, w => do
    let e ← expression fuel w
    if ← reads "," then
      skipLines
      return e :: (← list fuel w)
    else return [e]

/-- Expressions up to a closing parenthesis. -/
def arguments : Nat → Parse (List Expr)
  | 0 => fault
  | fuel + 1 => do
    skipLines
    if ← reads ")" then return []
    let es ← list fuel inner
    skipLines
    expect ")"
    return es

end

/-- Reads what ends a simple statement. A closing brace ends one too. -/
def terminator : Parse Unit := do
  match ← peek? with
  | some (.sign ";") | some .newline => skip
  | some (.sign "\x7d") | none => return
  | _ => fault

/-- Leaves signs and ends of lines out that stand between statements. The fuel bounds them. -/
def skipEmpty : Nat → Parse Unit
  | 0 => return
  | fuel + 1 => do
    match ← peek? with
    | some (.sign ";") | some .newline =>
      skip
      skipEmpty fuel
    | _ => return

/-- What a statement that prints is given, and where the output goes. -/
def output (fuel : Nat) : Parse (List Expr × Option (Sink × Expr)) := do
  let w : Within := ⟨true, false⟩
  let es ← match ← peek? with
    | none | some .newline => pure []
    | some (.sign s) =>
      if s ∈ [";", "\x7d", ">", ">>", "|"] then pure [] else list fuel w
    | _ => list fuel w
  let es := match es with
    | [.group es] => es
    | es => es
  if ← reads ">" then return (es, some (.file, ← expression fuel w))
  if ← reads ">>" then return (es, some (.append, ← expression fuel w))
  if ← reads "|" then return (es, some (.command, ← expression fuel w))
  return (es, none)

/-- A statement that needs something behind it to end. -/
def simple (fuel : Nat) : Parse Statement := do
  if ← readsKeyword "print" then
    let (es, sink) ← output fuel
    return .print es sink
  if ← readsKeyword "printf" then
    let (es, sink) ← output fuel
    return .printf es sink
  if ← readsKeyword "delete" then
    match ← peek? with
    | some (.name n) =>
      skip
      if ← reads "[" then
        let es ← list fuel inner
        expect "]"
        return .delete n (some es)
      else return .delete n none
    | _ => fault
  return .expr (← expression fuel inner)

/-- Whether the value of a statement is left out here. -/
def isOver : Parse Bool := do
  match ← peek? with
  | none | some .newline | some (.sign ";") | some (.sign "\x7d") => return true
  | _ => return false

mutual

def statement : Nat → Parse Statement
  | 0 => fault
  | fuel + 1 => do
    let value := fun (_ : Unit) => show Parse (Option Expr) from do
      if ← isOver then return none else return some (← expression fuel inner)
    match ← peek? with
    | some (.sign "\x7b") =>
      let s ← block fuel
      return s
    | some (.sign ";") =>
      skip
      return .block []
    | some (.keyword "if") =>
      skip
      expect "("
      let c ← expression fuel inner
      expect ")"
      skipLines
      let a ← statement fuel
      let before ← get
      skipEmpty (before.length + 1)
      if ← readsKeyword "else" then
        skipLines
        return .choose c a (some (← statement fuel))
      else
        set before
        return .choose c a none
    | some (.keyword "while") =>
      skip
      expect "("
      let c ← expression fuel inner
      expect ")"
      if ← reads ";" then return .while c (.block [])
      skipLines
      return .while c (← statement fuel)
    | some (.keyword "do") =>
      skip
      skipLines
      let body ← statement fuel
      skipEmpty ((← get).length + 1)
      if !(← readsKeyword "while") then fault
      expect "("
      let c ← expression fuel inner
      expect ")"
      terminator
      return .doWhile body c
    | some (.keyword "for") =>
      skip
      expect "("
      match ← get with
      | (.name n, _) :: (.keyword "in", _) :: (.name array, _) :: (.sign ")", _) :: rest =>
        set rest
        skipLines
        return .forIn n array (← statement fuel)
      | _ =>
        let start ← if ← isSign ";" then pure none else some <$> simple fuel
        expect ";"
        skipLines
        let c ← if ← isSign ";" then pure none else some <$> expression fuel inner
        expect ";"
        skipLines
        let next ← if ← isSign ")" then pure none else some <$> simple fuel
        expect ")"
        if ← reads ";" then return .for start c next (.block [])
        skipLines
        return .for start c next (← statement fuel)
    | some (.keyword "next") | some (.keyword "nextfile") =>
      skip
      terminator
      return .next
    | some (.keyword "break") =>
      skip
      terminator
      return .break
    | some (.keyword "continue") =>
      skip
      terminator
      return .continue
    | some (.keyword "exit") =>
      skip
      let e ← value ()
      terminator
      return .exit e
    | some (.keyword "return") =>
      skip
      let e ← value ()
      terminator
      return .give e
    | _ =>
      let s ← simple fuel
      terminator
      return s

/-- Statements between braces. -/
def block : Nat → Parse Statement
  | 0 => fault
  | fuel + 1 => do
    expect "\x7b"
    return .block (← statements fuel)

def statements : Nat → Parse (List Statement)
  | 0 => fault
  | fuel + 1 => do
    skipEmpty ((← get).length + 1)
    if ← reads "\x7d" then return []
    let s ← statement fuel
    return s :: (← statements fuel)

end

/-- The names of parameters up to the closing parenthesis. -/
def parameters : Nat → Parse (List String)
  | 0 => fault
  | fuel + 1 => do
    skipLines
    if ← reads ")" then return []
    match ← peek? with
    | some (.name n) =>
      skip
      skipLines
      let _ ← reads ","
      return n :: (← parameters fuel)
    | _ => fault

/-- Rules and functions. -/
def items : Nat → Script → Parse Script
  | 0, s => return s
  | fuel + 1, s => do
    let size := 20 * ((← get).length + 2)
    skipEmpty ((← get).length + 1)
    let body := fun (_ : Unit) => show Parse (Option Statement) from do
      if ← isSign "\x7b" then return some (← block size) else return none
    let rule := fun (pattern : Pattern) (body : Option Statement) =>
      items fuel { s with rules := s.rules ++ [⟨pattern, body⟩] }
    match ← peek? with
    | none => return s
    | some (.keyword "BEGIN") =>
      skip
      rule .begin (some (← block size))
    | some (.keyword "END") =>
      skip
      rule .end (some (← block size))
    | some (.keyword "function") | some (.keyword "func") =>
      skip
      let f ← match ← peek? with
        | some (.name f) | some (.call f) => pure f
        | _ => fault
      skip
      expect "("
      let names ← parameters size
      skipLines
      let body ← block size
      items fuel { s with functions := s.functions ++ [⟨f, names, body⟩] }
    | some (.sign "\x7b") => rule .always (← body ())
    | some _ =>
      let first ← expression size inner
      if ← reads "," then
        skipLines
        let last ← expression size inner
        rule (.range first last) (← body ())
      else rule (.when first) (← body ())

end Parse

/-- The program that a text writes. -/
def Script.ofText (s : List Char) : Except String Script := do
  let tokens ← Token.scan (s.length + 1) 1 none s
  let opened := tokens.foldl (fun (n : Int) t => match t.1 with
    | .sign "\x7b" => n + 1
    | .sign "\x7d" => n - 1
    | _ => n) 0
  match (Parse.items (tokens.length + 2) ⟨[], []⟩).run tokens with
  | .ok (script, _) => return script
  | .error message =>
    let last := (tokens.getLast?.map (·.2)).getD 1
    if 0 < opened then throw ("line " ++ toString (last + 1) ++ ": missing \x7d near end of file")
    else throw message

end PluginHost.Utility.Awk
