import PluginHost.Regex.Reader
import PluginHost.Text.Directive
import PluginHost.Text.Numeral
import PluginHost.Utility.Task
/-!
Utilities that count: `seq` and `expr`.
-/

namespace PluginHost.Utility

/-- A decimal number with so many places behind its point. -/
structure Decimal where
  mantissa : Int
  places : Nat
  /-- How many characters it was written with. -/
  width : Nat
deriving Inhabited

namespace Decimal

def ofText? (text : String) : Option Decimal := do
  let (isNegative, s) := Text.takeSign (text.toList.dropWhile Text.isSpace)
  let (whole, rest) := Text.takeDigits 10 s
  let (part, rest) := match rest with
    | '.' :: rest => Text.takeDigits 10 rest
    | rest => ([], rest)
  if whole.isEmpty && part.isEmpty then none
  let e : Int ← match rest with
    | [] => some 0
    | c :: rest =>
      if c = 'e' || c = 'E' then
        match Text.takeSignedDecimal rest with
        | some (n, []) => if n.natAbs < 1000 then some n else none
        | _ => none
      else none
  let hasPoint := text.toList.contains '.'
  let width := if whole.isEmpty then text.length + 1
    else if hasPoint && part.isEmpty then text.length - 1 else text.length
  let up := e - part.length
  let n : Int := Text.digitsValue 10 (whole ++ part) * Binary64.tenTo up.toNat
  return ⟨if isNegative then -n else n, (-up).toNat, width⟩

/-- The mantissa with more places. -/
def scaled (d : Decimal) (places : Nat) : Int := d.mantissa * Binary64.tenTo (places - d.places)

/-- A number with so many places, filled up with zeros. -/
def render (n : Int) (places width : Nat) : List Char :=
  let digits := Text.ofNat n.natAbs
  let digits := List.replicate (places + 1 - digits.length) '0' ++ digits
  let whole := digits.take (digits.length - places)
  let body := if places = 0 then whole else whole ++ '.' :: digits.drop (digits.length - places)
  let sign := if n < 0 then ['-'] else []
  sign ++ List.replicate (width - (sign.length + body.length)) '0' ++ body

end Decimal

/-- How many numbers are written at most. -/
def mostNumbers : Nat := 0x100000

/-- A format with one directive for a number: what stands before and behind it. -/
def takeNumberFormat (c : Call) (format : String) :
    Task (List Char × Text.Directive × List Char) := do
  let rec upTo : Nat → List Char → List Char → List Char × List Char
    | 0, done, s => (done.reverse, s)
    | fuel + 1, done, '%' :: '%' :: rest => upTo fuel ('%' :: done) rest
    | _, done, '%' :: rest => (done.reverse, '%' :: rest)
    | fuel + 1, done, ch :: rest => upTo fuel (ch :: done) rest
    | _, done, [] => (done.reverse, [])
  let (before, rest) := upTo format.length [] format.toList
  match rest with
  | '%' :: rest =>
    let parts := Text.Directive.takeParts rest
    match parts.rest with
    | letter :: rest =>
      if letter ∉ ['a', 'e', 'f', 'g', 'A', 'E', 'F', 'G'] then
        c.fail ("format " ++ quoted format ++ " has unknown %" ++ String.singleton letter ++
          " directive") 1
      let d := parts.flags.foldl Text.Directive.withFlag (.plain letter)
      let d := { d with width := parts.width.getD 0, precision := parts.precision.bind id }
      let (after, rest) := upTo format.length [] rest
      if rest.isEmpty then return (before, d, after)
      else c.fail ("format " ++ quoted format ++ " has too many % directives") 1
    | [] => c.fail ("format " ++ quoted format ++ " ends in %") 1
  | _ => c.fail ("format " ++ quoted format ++ " has no % directive") 1

/-- Marks where the numbers begin, as these may have dashes in front. -/
def withMark : List String → List String
  | [] => []
  | [word] => if isNegative word then ["--", word] else [word]
  | word :: text :: rest =>
    if isNegative word then "--" :: word :: text :: rest
    else if word = "-s" || word = "-f" then word :: text :: withMark rest
    else if word.toList.head? = some '-' then word :: withMark (text :: rest)
    else word :: text :: rest
where
  isNegative (word : String) : Bool :=
    match word.toList with
    | '-' :: d :: _ => d.isDigit || d = '.'
    | _ => false

def seq : Program := fun c => do
  let options : Options := ⟨"f:s:w", [("format", 'f'), ("separator", 's'), ("equal-width", 'w')],
    false, 1⟩
  let p ← options.parse { c with arguments := withMark c.arguments }
  let number := fun (text : String) => show Task Decimal from
    match Decimal.ofText? text with
    | some d => return d
    | none => c.misuse ("invalid floating point argument: " ++ quoted text) 1
  let one : Decimal := ⟨1, 0, 1⟩
  let (first, step, last) ← match p.operands with
    | [] => c.noOperand
    | [a] => do pure (one, one, ← number a)
    | [a, b] => do pure (← number a, one, ← number b)
    | [a, s, b] => do
      let a ← number a
      let step ← number s
      if step.mantissa = 0 then c.misuse ("invalid Zero increment value: " ++ quoted s) 1
      pure (a, step, ← number b)
    | _ :: _ :: _ :: extra :: _ => c.misuse ("extra operand " ++ quoted extra) 1
  let shown := max first.places step.places
  let places := max shown last.places
  let start := first.scaled places
  let by' := step.scaled places
  let stop := last.scaled places
  let count := if by' < 0 then (if start < stop then 0 else ((start - stop) / -by').toNat + 1)
    else (if stop < start then 0 else ((stop - start) / by').toNat + 1)
  let widthOf := fun (d : Decimal) => d.width + (shown - d.places) +
    (if d.places = 0 && shown ≠ 0 then 1 else 0)
  let lastWidth := last.width + shown - last.places - (if last.places ≠ 0 && shown = 0 then 1 else 0) +
    (if last.places = 0 && shown ≠ 0 then 1 else 0)
  let width := if p.has 'w' then max (widthOf first) lastWidth else 0
  let down := Binary64.tenTo (places - shown)
  let write ← match p.text? 'f' with
    | none => pure fun (n : Int) => Decimal.render (n / down) shown width
    | some format => do
      if p.has 'w' then
        c.misuse "format string may not be specified when printing equal width strings" 1
      let (before, d, after) ← takeNumberFormat c format
      pure fun (n : Int) => before ++
        d.float (.ofRatio (n < 0) n.natAbs (Binary64.tenTo places)) ++ after
  let separator := ((p.text? 's').getD "\n").toList
  let texts := (List.range (min count mostNumbers)).map fun (k : Nat) => write (start + by' * k)
  if !texts.isEmpty then Task.put (List.intercalate separator texts ++ ['\n'])

/-- What an expression comes to. -/
inductive Value where
  | number (n : Int)
  | text (s : String)
deriving Inhabited

namespace Value

def isInteger (s : List Char) : Bool :=
  match s with
  | '-' :: rest => !rest.isEmpty && rest.all Char.isDigit
  | s => !s.isEmpty && s.all Char.isDigit

def integer? : Value → Option Int
  | number n => some n
  | text s =>
    if isInteger s.toList then (Text.takeSignedDecimal s.toList).map (·.1) else none

def render : Value → String
  | number n => toString n
  | text s => s

/-- Whether a value is nought or nothing. -/
def isNull : Value → Bool
  | number n => n = 0
  | text s =>
    match s.toList with
    | [] => true
    | '-' :: rest => !rest.isEmpty && rest.all (· = '0')
    | s => s.all (· = '0')

end Value

/-- Words of an expression that are left, and those that were read, the newest first. -/
abbrev Evaluation (α : Type) := StateT (List String × List String) (Except String) α

namespace Evaluation

def fault {α : Type} (message : String) : Evaluation α := throw message

def next? : Evaluation (Option String) := do
  match ← get with
  | (word :: rest, before) =>
    set (rest, word :: before)
    return some word
  | ([], _) => return none

/-- Reads a word if it is next. -/
def reads (word : String) : Evaluation Bool := do
  if (← get).1.head? = some word then
    let _ ← next?
    return true
  else return false

/-- Reads one of some words if it is next. -/
def readsOne (words : List String) : Evaluation (Option String) := do
  match (← get).1.head? with
  | some word => if words.contains word then next? else return none
  | none => return none

/-- The last word that was read. -/
def last : Evaluation String := return (← get).2.head?.getD ""

def word : Evaluation String := do
  match ← next? with
  | some word => return word
  | none => fault ("syntax error: missing argument after " ++ quoted (← last))

def integers (a b : Value) : Evaluation (Int × Int) :=
  match a.integer?, b.integer? with
  | some m, some n => return (m, n)
  | _, _ => fault "non-integer argument"

/-- What an expression matches at the start of a text: the part of the first group, or how many
    characters. -/
def matched (s pattern : String) : Evaluation Value :=
  match Regex.ofText ⟨false, false, false, true⟩ pattern.toList with
  | .error f => fault f.message
  | .ok r =>
    let subject : Subject := ⟨s.toList.toArray, false⟩
    let hasGroup := 0 < r.groupCount
    match r.matchAt? subject 0 with
    | some m =>
      return if hasGroup then .text (String.ofList (m.group subject 1)) else .number (m.stop - m.start)
    | none => return if hasGroup then .text "" else .number 0

def compared (operator : String) (a b : Value) : Bool :=
  let order := match a.integer?, b.integer? with
    | some m, some n => compare m n
    | _, _ => compare a.render b.render
  match operator with
  | "<" => order == .lt
  | "<=" => order != .gt
  | "=" | "==" => order == .eq
  | "!=" => order != .eq
  | ">=" => order != .lt
  | _ => order == .gt

/-- What an operator on numbers gives. -/
def calculated (isLive : Bool) (operator : String) (a b : Value) : Evaluation Value := do
  if !isLive then return a
  let (m, n) ← integers a b
  match operator with
  | "+" => return .number (m + n)
  | "-" => return .number (m - n)
  | "*" => return .number (m * n)
  | operator =>
    if n = 0 then fault "division by zero"
    else return .number (if operator = "/" then m.tdiv n else m.tmod n)

/-- How strongly operators bind, the weakest first. -/
def levels : List (List String) :=
  [["|"], ["&"], ["<", "<=", "=", "==", "!=", ">=", ">"], ["+", "-"], ["*", "/", "%"], [":"]]

mutual

/-- An expression with the operators of some levels. Parts whose value is of no account are read, but
    not carried out. The fuel bounds the words; the same holds below. -/
def expression : Nat → Bool → List (List String) → Evaluation Value
  | 0, _, _ => fault "syntax error"
  | fuel + 1, isLive, [] => operand fuel isLive
  | fuel + 1, isLive, level :: inner => do
    operators fuel isLive level inner (← expression fuel isLive inner)

def operators : Nat → Bool → List String → List (List String) → Value → Evaluation Value
  | 0, _, _, _, _ => fault "syntax error"
  | fuel + 1, isLive, level, inner, a => do
    match ← readsOne level with
    | none => return a
    | some "|" =>
      let b ← expression fuel (isLive && a.isNull) inner
      let value := if !a.isNull then a else if b.isNull then .number 0 else b
      operators fuel isLive level inner value
    | some "&" =>
      let b ← expression fuel (isLive && !a.isNull) inner
      operators fuel isLive level inner (if a.isNull || b.isNull then .number 0 else a)
    | some ":" =>
      let b ← expression fuel isLive inner
      let value ← if isLive then matched a.render b.render else pure a
      operators fuel isLive level inner value
    | some operator =>
      let b ← expression fuel isLive inner
      let value ← if level.contains "<" then
          pure (.number (if compared operator a b then 1 else 0))
        else calculated isLive operator a b
      operators fuel isLive level inner value

def operand : Nat → Bool → Evaluation Value
  | 0, _ => fault "syntax error"
  | fuel + 1, isLive => do
    if ← reads "+" then return .text (← word)
    if ← reads "length" then return .number (← operand fuel isLive).render.length
    if ← reads "match" then
      let a ← operand fuel isLive
      let b ← operand fuel isLive
      return ← if isLive then matched a.render b.render else pure a
    if ← reads "index" then
      let a := (← operand fuel isLive).render.toList
      let b := (← operand fuel isLive).render.toList
      return .number ((a.findIdx? (b.contains ·)).elim 0 (· + 1))
    if ← reads "substr" then
      let s := (← operand fuel isLive).render.toList
      let a ← operand fuel isLive
      let b ← operand fuel isLive
      return match a.integer?, b.integer? with
        | some start, some count =>
          if start ≤ 0 || count ≤ 0 then .text ""
          else .text (String.ofList ((s.drop (start.toNat - 1)).take count.toNat))
        | _, _ => .text ""
    if ← reads "(" then
      let value ← expression fuel isLive levels
      match (← get).1.head? with
      | none => fault ("syntax error: expecting ')' after " ++ quoted (← last))
      | some ")" =>
        let _ ← next?
        return value
      | some other => fault ("syntax error: expecting ')' instead of " ++ quoted other)
    if ← reads ")" then fault "syntax error: unexpected ')'"
    return .text (← word)

end

end Evaluation

def expr : Program := fun c => do
  let words := if c.arguments.head? = some "--" then c.arguments.drop 1 else c.arguments
  if words.isEmpty then c.misuse "missing operand" 2
  match (Evaluation.expression (20 * (words.length + 1)) true Evaluation.levels).run (words, []) with
  | .error message => c.fail message 2
  | .ok (value, rest, _) =>
    match rest with
    | extra :: _ => c.fail ("syntax error: unexpected argument " ++ quoted extra) 2
    | [] =>
      Task.putText (value.render ++ "\n")
      if value.isNull then Task.setStatus 1

end PluginHost.Utility
