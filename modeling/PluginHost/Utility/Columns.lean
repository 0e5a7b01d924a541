import PluginHost.Text.CharClass
import PluginHost.Text.Escape
import PluginHost.Utility.Task
/-!
Utilities that deal with single characters and columns: `tr`, `cut`, `paste`, `expand`.
-/

namespace PluginHost.Utility

/-- A part of a set of characters as `tr` reads it. -/
inductive SetPart where
  | chars (cs : List Char)
  /-- A character so often; without a number as often as there is room. -/
  | times (c : Char) (count : Option Nat)
deriving Inhabited

/-- All characters that are bytes. -/
def allBytes : List Char := (List.range 256).map Char.ofNat

namespace SetPart

/-- A character at the start of a set, which may be written with a backslash. -/
def takeChar (s : List Char) : Option (Char × List Char) :=
  match s with
  | '\\' :: c :: rest =>
    if Text.isOctal c then
      let digits := ((c :: rest).take 3).takeWhile Text.isOctal
      let digits := if 255 < Text.digitsValue 8 digits then digits.take 2 else digits
      some (Char.ofNat (Text.digitsValue 8 digits), (c :: rest).drop digits.length)
    else if c = 'e' then some (c, rest)
    else some ((Text.escape? c).getD c, rest)
  | c :: rest => some (c, rest)
  | [] => none

/-- A class, a character that stands for those like it, or one that is repeated, in brackets. -/
def takeBracket? (s : List Char) : Option (Except String SetPart × List Char) :=
  match s with
  | ':' :: rest =>
    let name := rest.takeWhile (· ≠ ':')
    match rest.drop name.length with
    | ':' :: ']' :: after =>
      let name := String.ofList name
      match Text.charClass? name with
      | some isIn => some (.ok (.chars (allBytes.filter isIn)), after)
      | none => some (.error ("invalid character class '" ++ name ++ "'"), after)
    | _ => none
  | '=' :: c :: '=' :: ']' :: after => some (.ok (.chars [c]), after)
  | s =>
    match takeChar s with
    | some (c, '*' :: rest) =>
      let digits := rest.takeWhile Char.isDigit
      match rest.drop digits.length with
      | ']' :: after =>
        let base := if digits.head? = some '0' then 8 else 10
        let n := Text.digitsValue base digits
        some (.ok (.times c (if n = 0 then none else some n)), after)
      | _ => none
    | _ => none

def shownChar (c : Char) : String :=
  if c.toNat < 0x20 || 0x7F ≤ c.toNat then
    let digits := Nat.toDigits 8 c.toNat
    "\\" ++ String.ofList (List.replicate (3 - digits.length) '0' ++ digits)
  else String.singleton c

/-- The parts of a set. The fuel bounds the characters. -/
def parse : Nat → List Char → Except String (List SetPart)
  | 0, _ => .ok []
  | fuel + 1, s => do
    match s with
    | [] => return []
    | '[' :: rest =>
      match takeBracket? rest with
      | some (part, after) =>
        let part ← part
        return part :: (← parse fuel after)
      | none => range fuel s
    | s => range fuel s
where
  range (fuel : Nat) (s : List Char) : Except String (List SetPart) := do
    match takeChar s with
    | none => return []
    | some (first, '-' :: rest) =>
      match takeChar rest with
      | none => return [.chars [first, '-']]
      | some (last, rest) =>
        if last < first then
          throw ("range-endpoints of '" ++ shownChar first ++ "-" ++ shownChar last ++
            "' are in reverse collating sequence order")
        let cs := (List.range (last.toNat + 1 - first.toNat)).map fun n => Char.ofNat (first.toNat + n)
        return .chars cs :: (← parse fuel rest)
    | some (c, rest) => return .chars [c] :: (← parse fuel rest)

/-- The characters of a set, which are to be so many if that is possible. -/
def expand (size : Nat) (parts : List SetPart) : List Char :=
  let fixed := parts.foldl (fun n part => n + match part with
    | chars cs => cs.length
    | times _ count => count.getD 0) 0
  parts.flatMap fun part => match part with
    | chars cs => cs
    | times c count => List.replicate (count.getD (size - fixed)) c

end SetPart

/-- Leaves one of equal characters in a row. -/
def squeezed (set : Array Bool) : Option Char → List Char → List Char
  | _, [] => []
  | before, c :: rest =>
    if before = some c && set[c.toNat]?.getD false then squeezed set before rest
    else c :: squeezed set (some c) rest

/-- Tells of each byte whether it is among some characters. -/
def membership (cs : List Char) : Array Bool :=
  cs.foldl (fun a c => a.setIfInBounds c.toNat true) (Array.replicate 256 false)

def tr : Program := fun c => do
  let options : Options := ⟨"cCdst", [("complement", 'c'), ("delete", 'd'), ("squeeze-repeats", 's'),
    ("truncate-set1", 't')], false, 1⟩
  let p ← options.parse c
  let isComplement := p.has 'c' || p.has 'C'
  let deletes := p.has 'd'
  let squeezes := p.has 's'
  let needsTwo := deletes == squeezes
  let needed := if needsTwo then 2 else 1
  let remark := fun (message : String) => show Task Unit from do
    Task.putError (message ++ "\n")
    c.advise 1
  match p.operands with
  | [] => c.noOperand
  | [a] =>
    if needed = 2 then
      c.say ("missing operand after " ++ quoted a)
      remark (if squeezes then "Two strings must be given when both deleting and squeezing repeats."
        else "Two strings must be given when translating.")
  | [_, b] =>
    if deletes && !squeezes then
      c.say ("extra operand " ++ quoted b)
      remark "Only one string may be given when deleting without squeezing repeats."
  | _ :: _ :: extra :: _ => c.misuse ("extra operand " ++ quoted extra) 1
  let set := fun (s : String) => match SetPart.parse (s.length + 1) s.toList with
    | .ok parts => (pure parts : Task (List SetPart))
    | .error message => c.fail message 1
  let first ← set (p.operands.head?.getD "")
  let second ← set ((p.operands[1]?).getD "")
  let plain := SetPart.expand 0 first
  let from' := if isComplement then
      let isIn := membership plain
      allBytes.filter fun b => !(isIn[b.toNat]?.getD false)
    else plain
  let images := SetPart.expand from'.length second
  let text ← match ← Task.readInput with
    | .ok s => pure s
    | .error fault => c.fail ("read error: " ++ fault.reason) 1
  let isIn := membership from'
  let has := fun (b : Char) => isIn[b.toNat]?.getD false
  if deletes then
    let left := text.filter fun b => !has b
    Task.put (if squeezes then squeezed (membership images) none left else left)
  else if p.operands.length = 1 then Task.put (squeezed isIn none text)
  else
    let cuts := p.has 't'
    if images.isEmpty && !cuts then c.fail "when not truncating set1, string2 must be non-empty" 1
    let from' := if cuts then from'.take images.length else from'
    let last := images.getLast?.getD ' '
    let table := (from'.zipIdx).foldl (fun (a : Array Char) (b, n) =>
      a.setIfInBounds b.toNat (images[n]?.getD last)) allBytes.toArray
    let new := text.map fun b => table[b.toNat]?.getD b
    Task.put (if squeezes then squeezed (membership images) none new else new)

/-- Positions from one on to another one, or to the end. -/
abbrev Range := Nat × Option Nat

/-- The ranges that a list for `cut` writes. -/
def ranges (c : Call) (isFields : Bool) (list : String) : Task (List Range) := do
  let pieces := list.toList.splitOnP fun b => b = ',' || b = ' ' || b = '\t'
  let numbered := if isFields then "fields are numbered from 1"
    else "byte/character positions are numbered from 1"
  pieces.mapM fun piece => do
    let number := fun (s : List Char) => show Task Nat from
      if s.all Char.isDigit then return Nat.ofDigitChars 10 s 0
      else
        let what := if isFields then "invalid field value " else "invalid byte/character position "
        c.misuse (what ++
        quoted (String.ofList s)) 1
    let one := fun (n : Nat) => show Task Nat from
      if n = 0 then c.misuse numbered 1 else return n
    match piece.splitOnP (· = '-') with
    | [[]] => c.misuse numbered 1
    | [a] =>
      let n ← one (← number a)
      return (n, some n)
    | [[], []] => c.misuse "invalid range with no endpoint: -" 1
    | [[], b] => return (1, some (← one (← number b)))
    | [a, []] => return (← one (← number a), none)
    | [a, b] =>
      let n ← one (← number a)
      let m ← number b
      if m < n then c.misuse "invalid decreasing range" 1 else return (n, some m)
    | _ => c.misuse ((if isFields then "invalid field range" else "invalid byte or character range")) 1

/-- Ranges in order; those that overlap become one. -/
def joined (rs : List Range) : List Range :=
  ((rs.mergeSort fun a b => a.1 ≤ b.1).foldl (fun done (a, b) =>
    match done with
    | (a', none) :: rest => (a', none) :: rest
    | (a', some b') :: rest =>
      if a ≤ b' then (a', b.map (max b')) :: rest else (a, b) :: (a', some b') :: rest
    | [] => [(a, b)]) []).reverse

/-- What ranges in order leave out. -/
def leftOut : Nat → List Range → List Range
  | n, [] => [(n, none)]
  | n, (a, b) :: rest =>
    let before := if n < a then [(n, some (a - 1))] else []
    match b with
    | some b => before ++ leftOut (b + 1) rest
    | none => before

def isInRange (rs : List Range) (n : Nat) : Bool :=
  rs.any fun (a, b) => a ≤ n && b.all (n ≤ ·)

def cut : Program := fun c => do
  let options : Options := ⟨"b:c:d:f:nszO:C", [("bytes", 'b'), ("characters", 'c'), ("delimiter", 'd'),
    ("fields", 'f'), ("only-delimited", 's'), ("output-delimiter", 'O'), ("complement", 'C')], true, 1⟩
  let p ← options.parse c
  let lists := p.found.filter fun f => f.1 ∈ ['b', 'c', 'f']
  match lists with
  | [] => c.misuse "you must specify a list of bytes, characters, or fields" 1
  | _ :: _ :: _ => c.misuse "only one list may be specified" 1
  | [(letter, list)] =>
    let isFields := letter == 'f'
    let delimiter ← match p.text? 'd' with
      | none => pure '\t'
      | some d => match d.toList with
        | [] => pure (Char.ofNat 0)
        | [d] => pure d
        | _ => c.misuse "the delimiter must be a single character" 1
    if !isFields && (p.text? 'd').isSome then
      c.misuse "an input delimiter may be specified only when operating on fields" 1
    if !isFields && p.has 's' then
      c.misuse "suppressing non-delimited lines makes sense\n\tonly when operating on fields" 1
    let rs := joined (← ranges c isFields list)
    let rs := if p.has 'C' then leftOut 1 rs else rs
    let glue := (p.text? 'O').map String.toList
    let lines := linesOf (← Task.readOperands c p.operands)
    Task.putLines (lines.filterMap fun line =>
      if isFields then
        if !line.contains delimiter then (if p.has 's' then none else some line)
        else
          let fields := (line.splitOnP (· = delimiter)).zipIdx 1
          let chosen := (fields.filter fun f => isInRange rs f.2).map (·.1)
          some (List.intercalate (glue.getD [delimiter]) chosen)
      else
        some (match glue with
          | none => ((line.zipIdx 1).filter fun b => isInRange rs b.2).map (·.1)
          | some glue =>
            let pieces := rs.filterMap fun (a, b) =>
              let piece := (line.take (b.getD line.length)).drop (a - 1)
              if piece.isEmpty then none else some piece
            List.intercalate glue pieces))

/-- The texts between which a list of delimiters puts columns. -/
def delimiters (s : List Char) : List (List Char) :=
  match s with
  | '\\' :: '0' :: rest => [] :: delimiters rest
  | '\\' :: d :: rest => [(Text.escape? d).getD d] :: delimiters rest
  | d :: rest => [d] :: delimiters rest
  | [] => []

/-- Joins columns with the delimiters in turn. -/
def alternating (ds : List (List Char)) (columns : List (List Char)) : List Char :=
  (columns.zipIdx.map fun (column, n) =>
    if n = 0 then column else (ds[(n - 1) % max 1 ds.length]?.getD []) ++ column).flatten

def paste : Program := fun c => do
  let options : Options := ⟨"d:sz", [("delimiters", 'd'), ("serial", 's')], true, 1⟩
  let p ← options.parse c
  let ds := delimiters ((p.text? 'd').getD "\t").toList
  let paths := if p.operands.isEmpty then ["-"] else p.operands
  if p.has 's' then
    let texts ← paths.filterMapM (Task.readOperand c)
    Task.putLines (texts.map fun s => alternating ds (linesOf s))
  else
    /- the input goes round among all operands that name it -/
    let turns := (paths.filter (· = "-")).length
    let input ← if turns = 0 then pure [] else match ← Task.readInput with
      | .ok s => pure (linesOf s)
      | .error fault => c.fail ("-: " ++ fault.reason) 1
    let (files, _) ← paths.foldlM (fun (done, turn) path => do
      if path = "-" then
        let mine := (input.zipIdx.filter fun l => l.2 % turns = turn).map (·.1)
        return (mine :: done, turn + 1)
      else
        match ← Task.readFile path with
        | .ok s => return (linesOf s :: done, turn)
        | .error fault => c.fail (shown path ++ ": " ++ fault.reason) 1)
      (([] : List (List (List Char))), 0)
    let files := files.reverse
    let count := files.foldl (fun n lines => max n lines.length) 0
    let rows := files.map (·.toArray)
    Task.putLines ((List.range count).map fun n =>
      alternating ds (rows.map fun lines => lines[n]?.getD []))

/-- A line with blanks in place of tabs. -/
def withoutTabs (stop : Nat) (onlyFirst : Bool) : Nat → Bool → List Char → List Char
  | _, _, [] => []
  | column, isStart, ch :: rest =>
    if ch = '\t' && (isStart || !onlyFirst) then
      let count := stop - column % stop
      List.replicate count ' ' ++ withoutTabs stop onlyFirst (column + count) isStart rest
    else ch :: withoutTabs stop onlyFirst (column + 1) (isStart && ch = ' ') rest

def expand : Program := fun c => do
  let options : Options := ⟨"it:", [("initial", 'i'), ("tabs", 't')], true, 1⟩
  let p ← options.parse c
  let stop := max 1 (((p.text? 't').bind fun s => Text.digits? s.toList).getD 8)
  let text ← Task.readOperands c p.operands
  Task.put ((wholeLines text).flatMap (withoutTabs stop (p.has 'i') 0 true))

end PluginHost.Utility
