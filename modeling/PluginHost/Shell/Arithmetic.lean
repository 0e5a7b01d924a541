import PluginHost.Shell.Parameter
import PluginHost.Text.Numeral
/-!
Expressions in integers of 64 bits.
-/

namespace PluginHost.Shell.Arithmetic

inductive Operator where
  | multiply | divide | remainder | add | subtract | shiftLeft | shiftRight
  | less | lessEqual | greater | greaterEqual | equal | unequal
  | bitAnd | bitXor | bitOr
deriving DecidableEq, Inhabited

inductive Expression where
  | number (n : Int64)
  | named (name : String)
  | negative (e : Expression)
  | not (e : Expression)
  | complement (e : Expression)
  | binary (operator : Operator) (a b : Expression)
  | both (a b : Expression)
  | either (a b : Expression)
  | choice (condition yes no : Expression)
  | assign (name : String) (operator : Option Operator) (e : Expression)
deriving Inhabited

inductive Token where
  | number (n : Int64)
  | name (name : String)
  | mark (text : String)
deriving DecidableEq, Inhabited

/-- The marks, longer ones first. -/
def marks : List String :=
  ["<<=", ">>=", "<=", ">=", "==", "!=", "&&", "||", "<<", ">>", "+=", "-=", "*=", "/=", "%=", "&=",
   "|=", "^=", "+", "-", "*", "/", "%", "<", ">", "(", ")", "!", "~", "&", "|", "^", "?", ":", "="]

/-- The tokens of an expression. What is no token is a mark that nothing asks for. The fuel bounds
    their number. -/
def tokens : Nat → List Char → List Token
  | 0, _ => []
  | _, [] => []
  | fuel + 1, c :: rest =>
    let text := c :: rest
    if c = ' ' || c = '\t' || c = '\n' then tokens fuel rest
    else if c.isDigit then
      match Text.takeLiteral text with
      | some (n, rest) => .number (Int64.ofInt (Text.clamp64 n)) :: tokens fuel rest
      | none => [.mark ""]
    else if isNameStart c then
      let name := text.takeWhile isNameChar
      .name (String.ofList name) :: tokens fuel (text.drop name.length)
    else
      match marks.find? fun m => m.toList.isPrefixOf text with
      | some m => .mark m :: tokens fuel (text.drop m.length)
      | none => [.mark ""]

/-- An operator on two numbers; the lower the level the tighter it binds. -/
def operator? : String → Option (Operator × Nat)
  | "*" => some (.multiply, 0)
  | "/" => some (.divide, 0)
  | "%" => some (.remainder, 0)
  | "+" => some (.add, 1)
  | "-" => some (.subtract, 1)
  | "<<" => some (.shiftLeft, 2)
  | ">>" => some (.shiftRight, 2)
  | "<" => some (.less, 3)
  | "<=" => some (.lessEqual, 3)
  | ">" => some (.greater, 3)
  | ">=" => some (.greaterEqual, 3)
  | "==" => some (.equal, 4)
  | "!=" => some (.unequal, 4)
  | "&" => some (.bitAnd, 5)
  | "^" => some (.bitXor, 6)
  | "|" => some (.bitOr, 7)
  | _ => none

/-- The operator of an assignment; there is none in a plain one. -/
def assignment? : String → Option (Option Operator)
  | "=" => some none
  | mark =>
    match mark.toList.reverse with
    | '=' :: rest =>
      if mark ∈ ["==", "!=", "<=", ">="] then none
      else (operator? (String.ofList rest.reverse)).map fun o => some o.1
    | _ => none

abbrev Reader := List Token → Except String (Expression × List Token)

mutual

/-- One operand. The fuel bounds the tokens; the same holds below. -/
def operand : Nat → Reader
  | 0, _ => .error "expecting primary"
  | fuel + 1, ts =>
    let unary := fun (make : Expression → Expression) (rest : List Token) => do
      let (e, rest) ← operand fuel rest
      return (make e, rest)
    match ts with
    | .number n :: rest => .ok (.number n, rest)
    | .name n :: rest => .ok (.named n, rest)
    | .mark "+" :: rest => operand fuel rest
    | .mark "-" :: rest => unary .negative rest
    | .mark "!" :: rest => unary .not rest
    | .mark "~" :: rest => unary .complement rest
    | .mark "(" :: rest => do
      match ← expression fuel rest with
      | (e, .mark ")" :: rest) => return (e, rest)
      | _ => throw "expecting ')'"
    | _ => .error "expecting primary"

/-- Operands with operators between that bind at least as tightly as a level. -/
def operation : Nat → Nat → Reader
  | 0, _, _ => .error "expecting primary"
  | fuel + 1, level, ts => do
    let (a, rest) ← operand fuel ts
    moreOperations fuel level a rest

def moreOperations : Nat → Nat → Expression → Reader
  | 0, _, _, _ => .error "expecting primary"
  | fuel + 1, level, a, ts =>
    match ts with
    | .mark m :: rest =>
      match operator? m with
      | some (o, n) =>
        if level < n then .ok (a, ts)
        else if n = 0 then do
          let (b, rest) ← operand fuel rest
          moreOperations fuel level (.binary o a b) rest
        else do
          let (b, rest) ← operation fuel (n - 1) rest
          moreOperations fuel level (.binary o a b) rest
      | none => .ok (a, ts)
    | ts => .ok (a, ts)

def conjunction : Nat → Reader
  | 0, _ => .error "expecting primary"
  | fuel + 1, ts => do
    match ← operation fuel 7 ts with
    | (a, .mark "&&" :: rest) =>
      let (b, rest) ← conjunction fuel rest
      return (.both a b, rest)
    | found => return found

def disjunction : Nat → Reader
  | 0, _ => .error "expecting primary"
  | fuel + 1, ts => do
    match ← conjunction fuel ts with
    | (a, .mark "||" :: rest) =>
      let (b, rest) ← disjunction fuel rest
      return (.either a b, rest)
    | found => return found

def conditional : Nat → Reader
  | 0, _ => .error "expecting primary"
  | fuel + 1, ts => do
    match ← disjunction fuel ts with
    | (a, .mark "?" :: rest) =>
      match ← expression fuel rest with
      | (b, .mark ":" :: rest) =>
        let (c, rest) ← conditional fuel rest
        return (.choice a b c, rest)
      | _ => throw "expecting ':'"
    | found => return found

def expression : Nat → Reader
  | 0, _ => .error "expecting primary"
  | fuel + 1, ts =>
    match ts with
    | .name n :: .mark m :: rest =>
      match assignment? m with
      | some o => do
        let (e, rest) ← expression fuel rest
        return (.assign n o e, rest)
      | none => conditional fuel ts
    | ts => conditional fuel ts

end

/-- The expression that a text writes, or what is wrong with it. -/
def ofText (text : List Char) : Except String Expression := do
  let ts := tokens (text.length + 1) text
  match ← expression (10 * (ts.length + 2)) ts with
  | (e, []) => return e
  | _ => throw "expecting EOF"

/-- The number that a variable stands for; none if its value is no number. -/
def number? (text : String) : Option Int64 :=
  let s := text.toList
  match Text.takeSignedLiteral s with
  | some (n, rest) =>
    if Text.fits64 n && rest.all Text.isSpace then some (Int64.ofInt n) else none
  | none => if s.all Text.isSpace then some 0 else none

def truth (b : Bool) : Int64 := if b then 1 else 0

/-- The value of an operator on two numbers. There is none if it divides by zero. -/
def Operator.apply? (a b : Int64) : Operator → Option Int64
  | multiply => some (a * b)
  | divide => if b = 0 then none else some (a / b)
  | remainder => if b = 0 then none else some (a % b)
  | add => some (a + b)
  | subtract => some (a - b)
  | shiftLeft => some (a <<< b)
  | shiftRight => some (a >>> b)
  | less => some (truth (a < b))
  | lessEqual => some (truth (a ≤ b))
  | greater => some (truth (a > b))
  | greaterEqual => some (truth (a ≥ b))
  | equal => some (truth (a = b))
  | unequal => some (truth (a ≠ b))
  | bitAnd => some (a &&& b)
  | bitXor => some (a ^^^ b)
  | bitOr => some (a ||| b)

/-- Ends with a message on an expression. -/
def complain {α : Type} (text : List Char) (message : String) : Run α :=
  Run.fail ("arithmetic expression: " ++ message ++ ": \"" ++ String.ofList text ++ "\"")

def valueOf (name : String) : Run Int64 := do
  let text := ((← Run.process).parameter? name).getD ""
  match number? text with
  | some n => return n
  | none => Run.fail ("Illegal number: " ++ text)

/-- The value of an expression, of which the text is known for messages. -/
def evaluate (text : List Char) : Expression → Run Int64
  | .number n => return n
  | .named name => valueOf name
  | .negative e => return -(← evaluate text e)
  | .not e => return truth ((← evaluate text e) = 0)
  | .complement e => return ~~~(← evaluate text e)
  | .binary o a b => do
    let a ← evaluate text a
    let b ← evaluate text b
    match o.apply? a b with
    | some n => return n
    | none => complain text "division by zero"
  | .both a b => do
    if (← evaluate text a) = 0 then return 0
    return truth ((← evaluate text b) ≠ 0)
  | .either a b => do
    if (← evaluate text a) ≠ 0 then return 1
    return truth ((← evaluate text b) ≠ 0)
  | .choice condition yes no => do
    if (← evaluate text condition) ≠ 0 then evaluate text yes else evaluate text no
  | .assign name o e => do
    let n ← evaluate text e
    let n ← match o with
      | none => pure n
      | some o =>
        match o.apply? (← valueOf name) n with
        | some n => pure n
        | none => complain text "division by zero"
    Run.assign name (String.ofList (Text.ofInt n.toInt))
    return n

/-- The value of the expression that a text writes. -/
def value (text : List Char) : Run Int64 :=
  match ofText text with
  | .ok e => evaluate text e
  | .error message => complain text message

end PluginHost.Shell.Arithmetic
