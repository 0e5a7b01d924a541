import PluginHost.Binary64.Basic
import PluginHost.Text.Real
import PluginHost.Utility.Task
/-!
Utilities that put lines in order, or rely on their order: `sort`, `uniq`, `comm`.
-/

namespace PluginHost.Utility

/-- What is compared of two keys. -/
inductive KeyKind where
  | text
  | number
  /-- A number with an exponent. -/
  | real
  /-- A number with a letter for its magnitude. -/
  | human
  | month
  | version
deriving DecidableEq, Inhabited

/-- How keys are compared. -/
structure KeyOrder where
  kind : KeyKind
  foldsCase : Bool
  onlyWords : Bool
  onlyPrintable : Bool
  isReversed : Bool
  skipsBlanksAtStart : Bool
  skipsBlanksAtEnd : Bool
deriving DecidableEq, Inhabited

/-- The order of bytes. -/
def KeyOrder.plain : KeyOrder := ⟨.text, false, false, false, false, false, false⟩

/-- The part of a line that is compared: where it starts, and where it stops, with a field and a
    character each. -/
structure SortKey where
  field : Nat
  char : Nat
  last : Option (Nat × Nat)
  order : KeyOrder
deriving Inhabited

namespace SortKey

def isBlank (c : Char) : Bool := c = ' ' || c = '\t' || c = '\n'

/-- Leaves fields out at the start of a line; the line end of the last one stays if that is wanted. -/
def dropFields (tab : Option Char) (keepsLast : Bool) : Nat → List Char → List Char
  | 0, s => s
  | n + 1, s =>
    match tab with
    | some tab =>
      let rest := s.dropWhile (· ≠ tab)
      if n = 0 && keepsLast then rest else dropFields (some tab) keepsLast n (rest.drop 1)
    | none => dropFields none keepsLast n ((s.dropWhile isBlank).dropWhile (!isBlank ·))

/-- The part of a line that a key chooses. -/
def part (k : SortKey) (tab : Option Char) (line : List Char) : List Char :=
  let start := dropFields tab false (k.field - 1) line
  let start := if k.order.skipsBlanksAtStart then start.dropWhile isBlank else start
  let start := start.drop (k.char - 1)
  match k.last with
  | none => start
  | some (field, 0) =>
    let rest := dropFields tab true field line
    start.take (start.length - rest.length)
  | some (field, char) =>
    let rest := dropFields tab false (field - 1) line
    let rest := if k.order.skipsBlanksAtEnd then rest.dropWhile isBlank else rest
    let rest := rest.drop char
    start.take (start.length - rest.length)

end SortKey

/-- The order of two texts by their bytes. -/
def compareBytes : List Char → List Char → Ordering
  | [], [] => .eq
  | [], _ => .lt
  | _, [] => .gt
  | a :: s, b :: t => if a < b then .lt else if b < a then .gt else compareBytes s t

/-- A decimal number at the start of a text: its sign, and its digits before and behind the point. -/
structure PlainNumber where
  isNegative : Bool
  whole : List Char
  part : List Char

namespace PlainNumber

def ofText (s : List Char) : PlainNumber × List Char :=
  let s := s.dropWhile SortKey.isBlank
  let (isNegative, s) := match s with
    | '-' :: rest => (true, rest)
    | s => (false, s)
  let whole := s.takeWhile Char.isDigit
  match s.drop whole.length with
  | '.' :: rest =>
    let part := rest.takeWhile Char.isDigit
    (⟨isNegative, whole, part⟩, rest.drop part.length)
  | rest => (⟨isNegative, whole, []⟩, rest)

/-- The number with so many places behind the point, as an integer. -/
def scaled (places : Nat) (n : PlainNumber) : Int :=
  let digits := n.whole ++ n.part ++ List.replicate (places - n.part.length) '0'
  let magnitude : Int := Nat.ofDigitChars 10 digits 0
  if n.isNegative then -magnitude else magnitude

def compare (a b : PlainNumber) : Ordering :=
  let places := max a.part.length b.part.length
  Ord.compare (a.scaled places) (b.scaled places)

end PlainNumber

/-- The place of a letter for a magnitude among them. -/
def magnitudeOf (rest : List Char) : Nat :=
  match rest with
  | c :: _ => if c = 'k' then 1 else ("KMGTPEZYRQ".toList.findIdx? (· = c)).elim 0 (· + 1)
  | [] => 0

def compareHuman (s t : List Char) : Ordering :=
  let (a, restA) := PlainNumber.ofText s
  let (b, restB) := PlainNumber.ofText t
  let sign := fun (n : PlainNumber) (rest : List Char) =>
    let m : Int := magnitudeOf rest + 1
    let isZero := (n.whole ++ n.part).all (· = '0')
    if isZero then 0 else if n.isNegative then -m else m
  match compare (sign a restA) (sign b restB) with
  | .eq => a.compare b
  | o => o

/-- The number of the month that a text starts with. -/
def monthOf (s : List Char) : Nat :=
  let name := String.ofList (((s.dropWhile SortKey.isBlank).take 3).map Char.toUpper)
  (["JAN", "FEB", "MAR", "APR", "MAY", "JUN", "JUL", "AUG", "SEP", "OCT", "NOV", "DEC"].findIdx?
    (· = name)).elim 0 (· + 1)

/-- Compares texts so that numbers in them count as numbers. The fuel bounds their parts. -/
def compareVersions : Nat → List Char → List Char → Ordering
  | 0, _, _ => .eq
  | _, [], [] => .eq
  | fuel + 1, s, t =>
    let rank := fun (c : Char) =>
      if c = '~' then 0 else if c.isAlpha then c.toNat + 2 else c.toNat + 256
    let a := s.takeWhile (!·.isDigit)
    let b := t.takeWhile (!·.isDigit)
    let ranks := fun (s : List Char) => (s.map fun c => Char.ofNat (rank c)) ++ ['\x01']
    match compareBytes (ranks a) (ranks b) with
    | .eq =>
      let s := s.drop a.length
      let t := t.drop b.length
      let m := s.takeWhile Char.isDigit
      let n := t.takeWhile Char.isDigit
      match compare (Nat.ofDigitChars 10 m 0) (Nat.ofDigitChars 10 n 0) with
      | .eq => compareVersions fuel (s.drop m.length) (t.drop n.length)
      | o => o
    | o => o

namespace KeyOrder

def compareKeys (o : KeyOrder) (s t : List Char) : Ordering :=
  let seen := fun (s : List Char) =>
    let s := if o.onlyWords then s.filter fun c => c.isAlphanum || SortKey.isBlank c
      else if o.onlyPrintable then s.filter fun c => 0x20 ≤ c.toNat && c.toNat < 0x7F
      else s
    if o.foldsCase then s.map Char.toUpper else s
  let result := match o.kind with
    | .text => compareBytes (seen s) (seen t)
    | .number => (PlainNumber.ofText s).1.compare (PlainNumber.ofText t).1
    | .human => compareHuman s t
    | .month => compare (monthOf s) (monthOf t)
    | .version => compareVersions (s.length + t.length + 1) s t
    | .real =>
      let value := fun (s : List Char) => (Text.takeReal s).map (·.1)
      match value s, value t with
      | none, none => .eq
      | none, _ => .lt
      | _, none => .gt
      | some a, some b => if a.isNaN then (if b.isNaN then .eq else .lt) else if b.isNaN then .gt
        else if a.isBelow b then .lt else if b.isBelow a then .gt else .eq
  if o.isReversed then result.swap else result

/-- The order with what a letter stands for. -/
def withLetter? (o : KeyOrder) (letter : Char) : Option KeyOrder :=
  match letter with
  | 'b' => some { o with skipsBlanksAtStart := true, skipsBlanksAtEnd := true }
  | 'd' => some { o with onlyWords := true }
  | 'f' => some { o with foldsCase := true }
  | 'g' => some { o with kind := .real }
  | 'h' => some { o with kind := .human }
  | 'i' => some { o with onlyPrintable := true }
  | 'M' => some { o with kind := .month }
  | 'n' => some { o with kind := .number }
  | 'V' => some { o with kind := .version }
  | 'r' => some { o with isReversed := true }
  | _ => none

end KeyOrder

/-- One end of a key: a field, a character, and letters; and what follows it. -/
structure KeyEnd where
  field : Nat
  char : Option Nat
  letters : List Char
  rest : List Char

/-- Takes a number off a text that says where something is counted from. -/
def takeCount (c : Call) (place : String) (s : List Char) : Task (Nat × List Char) :=
  let digits := s.takeWhile Char.isDigit
  if digits.isEmpty then
    c.fail ("invalid number " ++ place ++ ": invalid count at start of " ++ quoted (String.ofList s)) 2
  else return (Nat.ofDigitChars 10 digits 0, s.drop digits.length)

def takeKeyEnd (c : Call) (place : String) (s : List Char) : Task KeyEnd := do
  let (field, rest) ← takeCount c place s
  let (char, rest) ← match rest with
    | '.' :: rest =>
      if field = 0 then pure (none, rest)
      else
        let (char, rest) ← takeCount c "after '.'" rest
        pure (some char, rest)
    | rest => pure (none, rest)
  let letters := rest.takeWhile Char.isAlpha
  return ⟨field, char, letters, rest.drop letters.length⟩

/-- The key that a text writes. Letters of its own keep others away. -/
def sortKey (c : Call) (general : KeyOrder) (text : String) : Task SortKey := do
  let bad := fun (message : String) => show Task SortKey from
    c.fail (message ++ ": invalid field specification " ++ quoted text) 2
  let first ← takeKeyEnd c "at field start" text.toList
  if first.field = 0 then bad "field number is zero"
  else if first.char = some 0 then bad "character offset is zero"
  else
    let letter := fun (atStart : Bool) (o : KeyOrder) (letter : Char) =>
      if letter = 'b' then
        some (if atStart then { o with skipsBlanksAtStart := true }
          else { o with skipsBlanksAtEnd := true })
      else o.withLetter? letter
    let start? := first.letters.foldlM (letter true) KeyOrder.plain
    match start?, first.rest with
    | some o, [] =>
      return ⟨first.field, first.char.getD 1, none, if first.letters.isEmpty then general else o⟩
    | some o, ',' :: rest =>
      let last ← takeKeyEnd c "after ','" rest
      if last.field = 0 then bad "field number is zero"
      else match last.letters.foldlM (letter false) o, last.rest with
      | some o, [] =>
        return ⟨first.field, first.char.getD 1, some (last.field, last.char.getD 0),
          if (first.letters ++ last.letters).isEmpty then general else o⟩
      | _, _ => bad "stray character in field spec"
    | _, _ => bad "stray character in field spec"

/-- How lines are ordered as a whole. -/
structure LineOrder where
  keys : List SortKey
  tab : Option Char
  /-- Whether lines with equal keys stay as they are. -/
  isStable : Bool
  isReversed : Bool

def LineOrder.compare (o : LineOrder) (s t : List Char) : Ordering :=
  let byKeys := o.keys.foldl (fun result k => match result with
    | .eq => k.order.compareKeys (k.part o.tab s) (k.part o.tab t)
    | result => result) .eq
  if byKeys ≠ .eq || (!o.keys.isEmpty && o.isStable) then byKeys
  else
    let result := compareBytes s t
    if o.isReversed then result.swap else result

/-- Leaves one of equal neighbours. -/
def distinct (same : List Char → List Char → Bool) : List (List Char) → List (List Char)
  | a :: b :: rest =>
    if same a b then
      match distinct same (b :: rest) with
      | _ :: rest => a :: rest
      | [] => [a]
    else a :: distinct same (b :: rest)
  | lines => lines

/-- The first of some lines that stands wrong behind the one before it, with its number. -/
def disorder? (isWrong : List Char → List Char → Bool) (n : Nat) :
    List (List Char) → Option (Nat × List Char)
  | a :: b :: rest =>
    if isWrong a b then some (n + 1, b) else disorder? isWrong (n + 1) (b :: rest)
  | _ => none

def sort : Program := fun c => do
  let options : Options := ⟨"bcCdfghik:mMno:rRsS:t:T:uVyz", [("unique", 'u'), ("reverse", 'r'),
    ("numeric-sort", 'n'), ("key", 'k'), ("field-separator", 't'), ("ignore-case", 'f'),
    ("output", 'o'), ("stable", 's'), ("check", 'c'), ("ignore-leading-blanks", 'b'),
    ("version-sort", 'V'), ("human-numeric-sort", 'h'), ("general-numeric-sort", 'g'),
    ("month-sort", 'M'), ("dictionary-order", 'd'), ("ignore-nonprinting", 'i'), ("merge", 'm')],
    true, 2⟩
  let p ← options.parse c
  let general := p.found.foldl (fun o f => (KeyOrder.withLetter? o f.1).getD o) KeyOrder.plain
  let tab ← match p.text? 't' with
    | none => pure none
    | some t => match t.toList with
      | [] => c.fail "empty tab" 2
      | [t] => pure (some t)
      | ['\\', '0'] => pure (some (Char.ofNat 0))
      | _ => c.fail ("multi-character tab " ++ quoted t) 2
  let keys ← (p.found.filter (·.1 = 'k')).mapM fun f => sortKey c general f.2
  let isPlain := { general with isReversed := false } = KeyOrder.plain
  let keys := if keys.isEmpty && !isPlain then [⟨1, 1, none, general⟩] else keys
  let isUnique := p.has 'u'
  let order : LineOrder := ⟨keys, tab, p.has 's' || isUnique, general.isReversed⟩
  let paths := if p.operands.isEmpty then ["-"] else p.operands
  let texts ← paths.mapM fun path => do
    match ← Task.readFile path with
    | .ok s => return linesOf s
    | .error .isADirectory => c.fail ("read failed: " ++ shown path ++ ": Is a directory") 2
    | .error fault => c.fail ("cannot read: " ++ shown path ++ ": " ++ fault.reason) 2
  let lines := texts.flatten
  if p.has 'c' || p.has 'C' then
    let isWrong := fun a b => match order.compare a b with
      | .gt => true
      | .eq => isUnique
      | .lt => false
    match disorder? isWrong 1 lines with
    | none => return
    | some (n, line) =>
      if p.has 'c' then
        c.say (paths.head?.getD "-" ++ ":" ++ toString n ++ ": disorder: " ++ String.ofList line)
      Task.exit 1
  let isBefore : List Char → List Char → Bool := fun a b => order.compare a b ≠ .gt
  let sorted := if p.has 'm' then texts.foldr (fun lines rest => lines.merge rest isBefore) []
    else lines.mergeSort isBefore
  let sorted := if isUnique then distinct (fun a b => order.compare a b = .eq) sorted else sorted
  match p.text? 'o' with
  | none => Task.putLines sorted
  | some path =>
    match ← Task.writeFile path false (sorted.flatMap (· ++ ['\n'])) with
    | .ok () => return
    | .error fault => c.fail ("open failed: " ++ shown path ++ ": " ++ fault.reason) 2

/-- Lines that follow one another and are equal as far as they are looked at. -/
def runs (key : List Char → List Char) (lines : List (List Char)) : List (List (List Char)) :=
  lines.splitBy fun a b => key a = key b

def uniq : Program := fun c => do
  let options : Options := ⟨"cdDf:is:uw:z", [("count", 'c'), ("repeated", 'd'), ("all-repeated", 'D'),
    ("skip-fields", 'f'), ("ignore-case", 'i'), ("skip-chars", 's'), ("unique", 'u'),
    ("check-chars", 'w')], true, 1⟩
  let p ← options.parse c
  let number := fun (letter : Char) (what : String) => show Task (Option Nat) from
    match p.text? letter with
    | none => return none
    | some text => match Text.digits? text.toList with
      | some n => return some n
      | none => c.fail (text ++ ": invalid number of " ++ what) 1
  let fields ← number 'f' "fields to skip"
  let chars ← number 's' "bytes to skip"
  let width ← number 'w' "bytes to compare"
  let key := fun (line : List Char) =>
    let line := (SortKey.dropFields none false (fields.getD 0) line).drop (chars.getD 0)
    let line := match width with
      | some n => line.take n
      | none => line
    if p.has 'i' then line.map Char.toLower else line
  let path := p.operands.head?.getD "-"
  match ← Task.readFile path with
  | .error fault =>
    if fault = .isADirectory then c.fail ("error reading " ++ quoted path ++ ": " ++ fault.reason) 1
    else c.fail (shown path ++ ": " ++ fault.reason) 1
  | .ok s =>
    let chosen := (runs key (linesOf s)).filter fun run =>
      !((p.has 'd' || p.has 'D') && run.length = 1) && !(p.has 'u' && 1 < run.length)
    let lines := chosen.flatMap fun run =>
      if p.has 'D' then run
      else
        let count := (toString run.length).toList
        let first := run.head?.getD []
        [if p.has 'c' then List.replicate (7 - count.length) ' ' ++ count ++ ' ' :: first else first]
    let text := lines.flatMap (· ++ ['\n'])
    match p.operands with
    | [_, target] =>
      match ← Task.writeFile target false text with
      | .ok () => return
      | .error fault => c.fail (shown target ++ ": " ++ fault.reason) 1
    | _ :: _ :: extra :: _ => c.misuse ("extra operand " ++ quoted extra) 1
    | _ => Task.put text

/-- Lines of two texts in order, with the number of the column in which each one goes. The fuel bounds
    the lines. -/
def merging : Nat → List (List Char) → List (List Char) → List (Nat × List Char)
  | 0, _, _ => []
  | _, [], t => t.map fun line => (2, line)
  | _, s, [] => s.map fun line => (1, line)
  | fuel + 1, a :: s, b :: t =>
    match compareBytes a b with
    | .lt => (1, a) :: merging fuel s (b :: t)
    | .gt => (2, b) :: merging fuel (a :: s) t
    | .eq => (3, a) :: merging fuel s t

def comm : Program := fun c => do
  let options : Options := ⟨"123zO:", [("output-delimiter", 'O'), ("check-order", 'k'),
    ("nocheck-order", 'K')], true, 1⟩
  let p ← options.parse c
  let read := fun (path : String) => show Task (List (List Char)) from do
    match ← Task.readFile path with
    | .ok s => return linesOf s
    | .error fault => c.fail (shown path ++ ": " ++ fault.reason) 1
  match p.operands with
  | [] => c.noOperand
  | [a] => c.misuse ("missing operand after " ++ quoted a) 1
  | [a, b] =>
    let s ← read a
    let t ← read b
    let isShown := fun (n : Nat) => !p.has (Char.ofNat ('0'.toNat + n))
    (merging (s.length + t.length + 1) s t).forM fun (n, line) => do
      if isShown n then
        let tabs := ((List.range (n - 1)).filter fun m => isShown (m + 1)).length
        let mark := ((p.text? 'O').getD "\t").toList
        Task.putLine ((List.replicate tabs mark).flatten ++ line)
    let isWrong := fun a b => compareBytes a b == .gt
    let check := fun (n : String) (lines : List (List Char)) =>
      if (disorder? isWrong 1 lines).isSome then c.complain ("file " ++ n ++ " is not in sorted order")
      else pure ()
    check "1" s
    check "2" t
    if (← get).status = 1 then c.complain "input is not in sorted order"
  | _ :: _ :: extra :: _ => c.misuse ("extra operand " ++ quoted extra) 1

end PluginHost.Utility
