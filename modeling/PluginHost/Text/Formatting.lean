import PluginHost.Text.Directive
import PluginHost.Text.Escape
import PluginHost.Text.Real
/-!
What `echo` and `printf` write.
-/

namespace PluginHost.Text

/-- What `echo` writes: the arguments with blanks between and a line end behind them, unless the first
    argument or an escape forbids it. -/
def echoed (arguments : List String) : List Char :=
  let (hasEnd, arguments) := match arguments with
    | "-n" :: rest => (false, rest)
    | arguments => (true, arguments)
  go hasEnd arguments
where
  go (hasEnd : Bool) : List String → List Char
    | [] => if hasEnd then ['\n'] else []
    | [a] =>
      let (text, isOver) := unescape a.toList
      if isOver || !hasEnd then text else text ++ ['\n']
    | a :: rest =>
      let (text, isOver) := unescape a.toList
      if isOver then text else text ++ ' ' :: go hasEnd rest

/-- How it is said what is wrong with arguments of a format. -/
structure Wording where
  noNumber : String → String
  notAllNumber : String → String
  outOfRange : String → String
  badDirective : String → String
  noLetter : String

/-- Output that a format makes. -/
structure Formatting where
  wording : Wording
  /-- What was written, the newest character first. -/
  written : List Char
  /-- The arguments that are left. -/
  arguments : List String
  /-- Whether nothing more is written. -/
  isOver : Bool
  /-- What is wrong, the newest message first. -/
  complaints : List String

namespace Formatting

/-- Writing a format. It may come to an end with a message. -/
abbrev Format (α : Type) := ExceptT String (StateM Formatting) α

def put (s : List Char) : Format Unit :=
  modify fun f => { f with written := s.reverse ++ f.written }

def argument? : Format (Option String) := do
  match (← get).arguments with
  | [] => return none
  | a :: rest =>
    modify fun f => { f with arguments := rest }
    return some a

def complain (message : String) : Format Unit :=
  modify fun f => { f with complaints := message :: f.complaints }

/-- Says what is wrong with a number of which this is left. -/
def check (whole : String) (rest : List Char) : Format Unit := do
  let wording := (← get).wording
  if !rest.isEmpty then
    complain (if rest.length = whole.length then wording.noNumber whole
      else wording.notAllNumber whole)

/-- A quote in front of a character makes its number. -/
def quoted? (s : List Char) : Option Nat :=
  match s with
  | '"' :: rest | '\'' :: rest => some ((rest.head?.map Char.toNat).getD 0)
  | _ => none

/-- The next argument as an integer, in the range that signed or unsigned numbers have. -/
def integer (isSigned : Bool) : Format Int := do
  let some a ← argument? | return 0
  if let some n := quoted? a.toList then return n
  match takeSignedLiteral a.toList with
  | none =>
    check a a.toList
    return 0
  | some (n, rest) =>
    let bound : Int := 0x10000000000000000
    let fits := if isSigned then fits64 n else n.natAbs < bound
    let nearest := if isSigned then clamp64 n else if fits then n % bound else bound - 1
    if !rest.isEmpty then check a rest
    else if !fits then complain ((← get).wording.outOfRange a)
    return nearest

/-- The next argument as a number with a point. -/
def real : Format Binary64 := do
  let some a ← argument? | return .zero false
  if let some n := quoted? a.toList then return .ofDecimal false n 0
  match takeReal a.toList with
  | none =>
    check a a.toList
    return .zero false
  | some (x, rest) =>
    check a rest
    return x

/-- Writes an argument as a directive says. `shown` is the directive as it was written. -/
def convert (d : Directive) (shown : List Char) : Format Unit := do
  match d.letter with
  | 's' => put (d.text (((← argument?).getD "").toList))
  | 'b' =>
    let (text, isOver) := unescape ((← argument?).getD "").toList
    put (d.text text)
    modify fun f => { f with isOver }
  | 'c' =>
    let c := ((← argument?).bind (·.toList.head?)).getD (Char.ofNat 0)
    put ({ d with precision := none }.text [c])
  | 'd' | 'i' => put (d.integer (← integer true))
  | 'o' | 'u' | 'x' | 'X' => put (d.natural (← integer false).toNat)
  | 'a' | 'A' | 'e' | 'E' | 'f' | 'F' | 'g' | 'G' => put (d.float (← real))
  | _ => throw ((← get).wording.badDirective (String.ofList shown))

/-- Writes what stands behind a percent sign, and gives the rest. -/
def directive (s : List Char) : Format (List Char) := do
  let parts := Directive.takeParts s
  let d := parts.flags.foldl Directive.withFlag (.plain ' ')
  let d ← match parts.width with
    | some n => pure { d with width := n }
    | none => pure (d.withWidth (← integer true))
  let d ← match parts.precision with
    | none => pure d
    | some (some n) => pure { d with precision := some n }
    | some none =>
      let n ← integer true
      pure { d with precision := if n < 0 then none else some n.toNat }
  match parts.rest with
  | [] => throw (← get).wording.noLetter
  | c :: rest =>
    convert { d with letter := c } ('%' :: s.take (s.length - rest.length))
    return rest

/-- Writes a format. The fuel bounds its characters. -/
def pass : Nat → List Char → Format Unit
  | 0, _ => return
  | _, [] => return
  | fuel + 1, c :: rest => do
    if (← get).isOver then return
    match c, rest with
    | '\\', rest =>
      let (c, rest) := takeEscape rest
      put [c]
      pass fuel rest
    | '%', '%' :: rest =>
      put ['%']
      pass fuel rest
    | '%', rest => pass fuel (← directive rest)
    | c, rest =>
      put [c]
      pass fuel rest

/-- Writes a format as often as it takes to use the arguments up. -/
def passes : Nat → List Char → Format Unit
  | 0, _ => return
  | fuel + 1, format => do
    let before := (← get).arguments.length
    pass format.length format
    let f ← get
    if !f.isOver && !f.arguments.isEmpty && f.arguments.length < before then passes fuel format

end Formatting

/-- What a format makes of some arguments: the text, what is wrong, and what brought it to an end. -/
structure Formatted where
  text : List Char
  complaints : List String
  fault : Option String
  /-- Arguments that the format has no use for. -/
  left : List String

open Formatting in
def formatted (wording : Wording) (format : String) (arguments : List String) : Formatted :=
  let (r, f) := (passes (arguments.length + 1) format.toList).run ⟨wording, [], arguments, false, []⟩
  ⟨f.written.reverse, f.complaints.reverse, match r with
    | .ok () => none
    | .error message => some message, f.arguments⟩

end PluginHost.Text
