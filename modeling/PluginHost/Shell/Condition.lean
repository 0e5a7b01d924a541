import PluginHost.Shell.State
import PluginHost.Text.Numeral
/-!
Conditions: what `test` and `[` find out.

The words of a condition are told apart by where they stand, so that a word that looks like an
operator may be an operand.
-/

namespace PluginHost.Shell

/-- What kind of word an operator is. -/
inductive ConditionKind where
  | unary
  | binary
  | negation
  | both
  | either
  | opening
  | closing
deriving DecidableEq, Inhabited

namespace Condition

def kind? (word : String) : Option ConditionKind :=
  if word ∈ ["-r", "-w", "-x", "-e", "-f", "-d", "-c", "-b", "-p", "-u", "-g", "-k", "-s", "-t",
    "-z", "-n", "-h", "-O", "-G", "-L", "-S"] then some .unary
  else if word ∈ ["=", "!=", "<", ">", "-eq", "-ne", "-ge", "-gt", "-le", "-lt", "-nt", "-ot",
    "-ef"] then some .binary
  else match word with
    | "!" => some .negation
    | "-a" => some .both
    | "-o" => some .either
    | "(" => some .opening
    | ")" => some .closing
    | _ => none

/-- What a word at the start of some words is. -/
inductive Reading where
  | nothing
  | operand
  | operator (word : String) (kind : ConditionKind)
deriving DecidableEq

/-- How the first of some words is read. An operator on one operand that cannot have one is an operand
    itself, and so is an opening parenthesis at the end. -/
def read : List String → Reading
  | [] => .nothing
  | word :: rest =>
    match kind? word with
    | none => .operand
    | some .unary =>
      match rest with
      | [] => .operand
      | [_] => .operator word .unary
      | next :: _ => if kind? next = some .binary then .operand else .operator word .unary
    | some .opening => if rest.isEmpty then .operand else .operator word .opening
    | some kind => .operator word kind

def Reading.is (r : Reading) (kind : ConditionKind) : Bool :=
  match r with
  | operator _ k => k = kind
  | _ => false

/-- The words from the one that was reached on. -/
abbrev Reader (α : Type) := StateT (List String) Run α

def complain {α : Type} (operator message : String) : Reader α :=
  Run.fail (if operator.isEmpty then message else operator ++ ": " ++ message)

def number (text : String) : Reader Int := do
  match Text.takeSignedDecimal text.toList with
  | some (n, rest) =>
    if rest.all Text.isSpace && Text.fits64 n then return n
    else Run.fail ("Illegal number: " ++ text)
  | none => Run.fail ("Illegal number: " ++ text)

/-- Whether a path that leads to a file, a directory or a device has a property. -/
def ofPath (operator path : String) : Run Bool := do
  let w ← Run.world
  let isDevice := path ∈ ["/dev/null", "/dev/zero", "/dev/full", "/dev/tty", "/dev/random",
    "/dev/urandom"]
  let found := w.disk.lookup (Octets.decode path)
  let isThere := isDevice || found.isOk
  match operator with
  | "-e" | "-r" | "-w" | "-O" | "-G" => return isThere
  | "-x" =>
    match found with
    | .ok (.directory _) => return true
    | _ => return w.isRunnable path
  | "-f" => return !isDevice && (found matches .ok (.file _))
  | "-d" => return (found matches .ok (.directory _))
  | "-c" => return isDevice
  | "-s" =>
    match found with
    | .ok (.file bytes) => return !bytes.isEmpty
    | .ok (.directory _) => return true
    | .error _ => return false
  | _ => return false

/-- The number of a descriptor is asked for; none leads to a terminal. -/
def ofOperand (operator operand : String) : Reader Bool := do
  match operator with
  | "-z" => return operand.isEmpty
  | "-n" => return !operand.isEmpty
  | "-t" =>
    let _ ← number operand
    return false
  | operator => ofPath operator operand

def ofOperands (operator a b : String) : Reader Bool := do
  match operator with
  | "=" => return a = b
  | "!=" => return a ≠ b
  | "<" => return a < b
  | ">" => return b < a
  | "-eq" => return (← number a) = (← number b)
  | "-ne" => return (← number a) ≠ (← number b)
  | "-ge" => return (← number a) ≥ (← number b)
  | "-gt" => return (← number a) > (← number b)
  | "-le" => return (← number a) ≤ (← number b)
  | "-lt" => return (← number a) < (← number b)
  | "-ef" =>
    let disk ← Run.disk
    let a := Octets.decode a
    let b := Octets.decode b
    return disk.contains a && disk.contains b && (disk.place a).toOption = (disk.place b).toOption
  -- times are not kept
  | _ => return false

mutual

/-- Conditions of which one has to hold. After each of these the word that was reached is the last one
    that belongs to it. The fuel bounds the words. -/
def disjunction : Nat → Reading → Reader Bool
  | 0, _ => return false
  | fuel + 1, r => do
    let a ← conjunction fuel r
    if (read ((← get).drop 1)).is .either then
      modify (List.drop 2)
      let b ← disjunction fuel (read (← get))
      return a || b
    else return a

def conjunction : Nat → Reading → Reader Bool
  | 0, _ => return false
  | fuel + 1, r => do
    let a ← negation fuel r
    if (read ((← get).drop 1)).is .both then
      modify (List.drop 2)
      let b ← conjunction fuel (read (← get))
      return a && b
    else return a

def negation : Nat → Reading → Reader Bool
  | 0, _ => return false
  | fuel + 1, r => do
    if r.is .negation then
      let next := read ((← get).drop 1)
      if next ≠ .nothing then modify (List.drop 1)
      return !(← negation fuel next)
    else primary fuel r

def primary : Nat → Reading → Reader Bool
  | 0, _ => return false
  | fuel + 1, r => do
    match r with
    | .nothing => return false
    | .operator _ .opening =>
      modify (List.drop 1)
      let next := read (← get)
      if next.is .closing then return false
      let a ← disjunction fuel next
      modify (List.drop 1)
      if !(read (← get)).is .closing then complain "" "closing paren expected"
      return a
    | .operator word .unary =>
      modify (List.drop 1)
      match ← get with
      | [] => complain word "argument expected"
      | operand :: _ => ofOperand word operand
    | _ =>
      match ← get with
      | [] => return false
      | a :: rest =>
        match read rest with
        | .operator word .binary =>
          modify (List.drop 2)
          match ← get with
          | [] => complain word "argument expected"
          | b :: _ => ofOperands word a b
        | _ => return !a.isEmpty

end

/-- Whether some words hold. Up to four of them are read in one way only. The fuel bounds the
    words. -/
def holds : Nat → List String → Run Bool
  | 0, _ => return false
  | fuel + 1, words => do
    let whole := fun (r : Reading) => do
      let (a, rest) ← (disjunction (4 * words.length + 4) r).run words
      match rest with
      | word :: _ :: _ => Run.fail (if word.isEmpty then "unexpected operator"
          else word ++ ": unexpected operator")
      | _ => return a
    let few : Run Bool :=
      match words with
      | "(" :: rest =>
        if rest.getLast? = some ")" then holds fuel rest.dropLast else whole (read words)
      | "!" :: rest => return !(← holds fuel rest)
      | words => whole (read words)
    match words with
    | [] => return false
    | [_, operator, _] =>
      if kind? operator = some .binary then whole .operand else few
    | [_, _, _, _] => few
    | words => whole (read words)

end Condition

end PluginHost.Shell
