import PluginHost.Text.CharClass
import PluginHost.Text.Numeral
import PluginHost.Utility.Task
/-!
Utilities that pass lines on: all of them, those at one end, or in another order; and those that count
them.
-/

namespace PluginHost.Utility

/-- A number filled up with blanks on its left. -/
def padLeft (width : Nat) (s : List Char) : List Char :=
  List.replicate (width - s.length) ' ' ++ s

/-- How a byte is shown where all of them are to be seen. -/
def shownByte (c : Char) : List Char :=
  let low := fun (n : Nat) =>
    if n < 32 then ['^', Char.ofNat (n + 64)]
    else if n = 127 then ['^', '?']
    else [Char.ofNat n]
  if c.toNat < 128 then low c.toNat else 'M' :: '-' :: low (c.toNat - 128)

/-- A line as `cat` shows it. -/
def shownLine (showsEnds showsTabs showsOthers : Bool) (line : List Char) : List Char :=
  line.flatMap fun c =>
    if c = '\n' then (if showsEnds then ['$', '\n'] else ['\n'])
    else if c = '\t' then (if showsTabs then ['^', 'I'] else ['\t'])
    else if showsOthers then shownByte c
    else [c]

/-- Numbers the lines that count, and leaves out empty lines behind another one if that is wanted. -/
def numberedLines (all filled squeezes : Bool) : Nat → Bool → List (List Char) → List (List Char)
  | _, _, [] => []
  | n, isBehindEmpty, line :: rest =>
    let isEmpty := line == ['\n']
    if squeezes && isEmpty && isBehindEmpty then numberedLines all filled squeezes n true rest
    else if (all && !filled) || (filled && !isEmpty) then
      (padLeft 6 (Text.ofNat n) ++ '\t' :: line) ::
        numberedLines all filled squeezes (n + 1) isEmpty rest
    else line :: numberedLines all filled squeezes n isEmpty rest

def cat : Program := fun c => do
  let options : Options := ⟨"AbeEnstTuv", [("show-all", 'A'), ("number-nonblank", 'b'),
    ("show-ends", 'E'), ("number", 'n'), ("squeeze-blank", 's'), ("show-tabs", 'T'),
    ("show-nonprinting", 'v')], true, 1⟩
  let p ← options.parse c
  let text ← Task.readOperands c p.operands
  if (p.operands.isEmpty || p.operands.contains "-") && ((← get).input matches .closed) then
    c.complain "closing standard input: Bad file descriptor"
  let isPlain := p.found.all (·.1 = 'u')
  if isPlain then Task.put text
  else
    let lines := numberedLines (p.has 'n') (p.has 'b') (p.has 's') 1 false (wholeLines text)
    let showsOthers := p.has 'v' || p.has 'A' || p.has 'e' || p.has 't'
    Task.put (lines.flatMap (shownLine (p.has 'A' || p.has 'E' || p.has 'e')
      (p.has 'A' || p.has 'T' || p.has 't') showsOthers))

/-- The number that a text with a letter for a unit writes. -/
def size? (s : List Char) : Option Nat :=
  let (digits, unit) := Text.takeDigits 10 s
  if digits.isEmpty then none
  else
    let n := Text.digitsValue 10 digits
    match String.ofList unit with
    | "" | "c" => some n
    | "b" => some (n * 512)
    | "k" | "K" | "KiB" => some (n * 1024)
    | "kB" | "KB" => some (n * 1000)
    | "M" | "MiB" => some (n * 1024 * 1024)
    | "MB" => some (n * 1000000)
    | "G" | "GiB" => some (n * 1024 * 1024 * 1024)
    | _ => none

/-- How much of a file is passed on: so many lines or bytes, from one end or without them. -/
structure Portion where
  isBytes : Bool
  count : Nat
  /-- Whether so much is left out. -/
  isRest : Bool

namespace Portion

/-- The start of a text. -/
def start (p : Portion) (s : List Char) : List Char :=
  if p.isBytes then (if p.isRest then s.take (s.length - p.count) else s.take p.count)
  else
    let lines := wholeLines s
    (if p.isRest then lines.take (lines.length - p.count) else lines.take p.count).flatten

/-- The end of a text. What is left out is counted from one. -/
def stop (p : Portion) (s : List Char) : List Char :=
  if p.isBytes then (if p.isRest then s.drop (p.count - 1) else s.drop (s.length - p.count))
  else
    let lines := wholeLines s
    (if p.isRest then lines.drop (p.count - 1) else lines.drop (lines.length - p.count)).flatten

end Portion

/-- Reads what an operand of `head` or `tail` names. -/
def openOperand (c : Call) (path : String) : Task (Option (List Char)) := do
  match ← Task.readFile path with
  | .ok s => return some s
  | .error .isADirectory =>
    c.complain ("error reading " ++ quoted path ++ ": Is a directory")
    return none
  | .error fault =>
    c.complain ("cannot open " ++ quoted path ++ " for reading: " ++ fault.reason)
    return none

/-- Passes a part of each file on, under its name if there are several. -/
def passParts (c : Call) (p : Parsed) (part : List Char → List Char) : Task Unit := do
  let paths := if p.operands.isEmpty then ["-"] else p.operands
  let isNamed := match p.last? ['q', 'v'] with
    | some letter => letter == 'v'
    | none => decide (1 < paths.length)
  let _ ← paths.foldlM (fun isFirst path => do
    match ← openOperand c path with
    | none => return isFirst
    | some s =>
      if isNamed then
        let name := if path = "-" then "standard input" else path
        Task.putText ((if isFirst then "" else "\n") ++ "==> " ++ name ++ " <==\n")
      Task.put (part s)
      return false) true

/-- A number that stands as an option of its own becomes the text of one. -/
def withCount (words : List String) : List String :=
  match words with
  | word :: rest =>
    match word.toList with
    | '-' :: d :: more =>
      if d.isDigit then "-n" :: String.ofList (d :: more) :: rest else words
    | _ => words
  | [] => []

/-- What is left of the input for others behind a part of it. Of a pipe whole blocks are taken. -/
def blockBytes : Nat := 8192

def head : Program := fun c => do
  let options : Options := ⟨"c:n:qvz", [("bytes", 'c'), ("lines", 'n'), ("quiet", 'q'),
    ("silent", 'q'), ("verbose", 'v')], true, 1⟩
  let p ← options.parse { c with arguments := withCount c.arguments }
  let isBytes := p.last? ['c', 'n'] = some 'c'
  let text := ((p.text? (if isBytes then 'c' else 'n')).getD "10").toList
  let (isRest, digits) := match text with
    | '-' :: rest => (true, rest)
    | '+' :: rest => (false, rest)
    | s => (false, s)
  match size? digits with
  | none =>
    c.fail ("invalid number of " ++ (if isBytes then "bytes: " else "lines: ") ++
      quoted (String.ofList text)) 1
  | some count =>
    let portion : Portion := ⟨isBytes, count, isRest⟩
    let isAlone := p.operands.all fun path => path ≠ "-"
    let before := (← get).input
    match before with
    | .endless e =>
      if p.operands.isEmpty && isBytes && !isRest then Task.put (List.replicate count e)
      else passParts c p portion.start
    | _ =>
      if p.operands = ["/dev/zero"] && isBytes && !isRest then
        Task.put (List.replicate count (Char.ofNat 0))
      else passParts c p portion.start
      match before with
      | .text s isFile =>
        if (p.operands.isEmpty || !isAlone) && !isRest then
          let taken := (portion.start s).length
          let taken := if isFile || isBytes then taken
            else (taken + blockBytes - 1) / blockBytes * blockBytes
          modify fun w => { w with input := .text (s.drop taken) isFile }
      | _ => return

def tail : Program := fun c => do
  let words := match c.arguments with
    | word :: rest =>
      match word.toList with
      | '+' :: d :: _ => if d.isDigit then "-n" :: word :: rest else c.arguments
      | _ => withCount c.arguments
    | [] => []
  let options : Options := ⟨"c:n:qvfFz", [("bytes", 'c'), ("lines", 'n'), ("quiet", 'q'),
    ("silent", 'q'), ("verbose", 'v'), ("follow", 'f')], true, 1⟩
  let p ← options.parse { c with arguments := words }
  let isBytes := p.last? ['c', 'n'] = some 'c'
  let text := ((p.text? (if isBytes then 'c' else 'n')).getD "10").toList
  let (isRest, digits) := match text with
    | '+' :: rest => (true, rest)
    | '-' :: rest => (false, rest)
    | s => (false, s)
  match size? digits with
  | none =>
    c.fail ("invalid number of " ++ (if isBytes then "bytes: " else "lines: ") ++
      quoted (String.ofList text)) 1
  | some count => passParts c p (Portion.stop ⟨isBytes, count, isRest⟩)

def tac : Program := fun c =>
  (if c.arguments.isEmpty then ["-"] else c.arguments).forM fun path => do
    match ← Task.readFile path with
    | .ok s => Task.put (wholeLines s).reverse.flatten
    | .error .isADirectory => c.complain (path ++ ": read error: Is a directory")
    | .error fault =>
      c.complain ("failed to open " ++ quoted path ++ " for reading: " ++ fault.reason)

def rev : Program := fun c => do
  let text ← Task.readOperands c c.arguments
  Task.put ((wholeLines text).flatMap fun line =>
    if line.getLast? = some '\n' then line.dropLast.reverse ++ ['\n'] else line.reverse)

def nl : Program := fun c => do
  let options : Options := ⟨"b:s:w:v:n:i:", [], true, 1⟩
  let p ← options.parse c
  let text ← Task.readOperands c p.operands
  let all := p.text? 'b' = some "a"
  let none' := p.text? 'b' = some "n"
  let width := ((p.text? 'w').bind fun s => Text.digits? s.toList).getD 6
  let first := ((p.text? 'v').bind fun s => Text.digits? s.toList).getD 1
  let step := ((p.text? 'i').bind fun s => Text.digits? s.toList).getD 1
  let separator := ((p.text? 's').getD "\t").toList
  let number := fun (n : Nat) =>
    let s := Text.ofNat n
    match p.text? 'n' with
    | some "ln" => s ++ List.replicate (width - s.length) ' '
    | some "rz" => List.replicate (width - s.length) '0' ++ s
    | _ => padLeft width s
  let blank := List.replicate (width + separator.length) ' '
  let (lines, _) := (linesOf text).foldl (fun (done, n) line =>
    if !none' && (all || !line.isEmpty) then
      ((number n ++ separator ++ line) :: done, n + step)
    else ((blank ++ line) :: done, n)) ([], first)
  Task.putLines lines.reverse

/-- What is counted in a text. -/
structure Counts where
  lines : Nat
  words : Nat
  bytes : Nat
  longest : Nat

namespace Counts

def zero : Counts := ⟨0, 0, 0, 0⟩

def add (a b : Counts) : Counts :=
  ⟨a.lines + b.lines, a.words + b.words, a.bytes + b.bytes, max a.longest b.longest⟩

/-- The words of a text, and whether one is under way. -/
def countWords (s : List Char) : Nat :=
  (s.foldl (fun (n, inWord) c =>
    if Text.isSpace c then (n, false) else if inWord then (n, true) else (n + 1, true))
    (0, false)).1

/-- How wide a line is, with tabs that lead to every eighth column. -/
def lineWidth (line : List Char) : Nat :=
  line.foldl (fun n c =>
    if c = '\t' then (n / 8 + 1) * 8
    else if 0x20 ≤ c.toNat && c.toNat < 0x7F then n + 1 else n) 0

def ofText (s : List Char) : Counts :=
  ⟨s.count '\n', countWords s, s.length, (linesOf s).foldl (fun n l => max n (lineWidth l)) 0⟩

end Counts

/-- How many digits a number has. -/
def digitCount (n : Nat) : Nat := (Text.ofNat n).length

def wc : Program := fun c => do
  let options : Options := ⟨"clmwL", [("bytes", 'c'), ("lines", 'l'), ("chars", 'm'),
    ("words", 'w'), ("max-line-length", 'L')], true, 1⟩
  let p ← options.parse c
  let p := if p.found.isEmpty then { p with found := [('l', ""), ('w', ""), ('c', "")] } else p
  let columns := fun (n : Counts) =>
    (if p.has 'l' then [n.lines] else []) ++ (if p.has 'w' then [n.words] else []) ++
      (if p.has 'm' then [n.bytes] else []) ++ (if p.has 'c' then [n.bytes] else []) ++
      (if p.has 'L' then [n.longest] else [])
  let isFile := fun (path : String) (w : Work) =>
    if path = "-" then match w.input with
      | .text _ isFile => isFile
      | _ => false
    else path ≠ "/dev/null" && w.disk.isFile (Octets.decode path)
  let paths := if p.operands.isEmpty then ["-"] else p.operands
  let before ← get
  let present := paths.filter fun path => path = "-" || before.disk.contains (Octets.decode path) ||
    path = "/dev/null"
  let sizes := present.map fun path => match before.input, path with
    | .text s _, "-" => s.length
    | _, path => ((before.disk.read (Octets.decode path)).toOption.getD []).length
  let width :=
    if paths.length = 1 && (columns .zero).length = 1 then 1
    else max (digitCount (sizes.foldl (· + ·) 0))
      (if present.all fun path => isFile path before then 1 else 7)
  let line := fun (n : Counts) (name : String) =>
    let numbers := (columns n).map fun n => String.ofList (padLeft width (Text.ofNat n))
    Task.putText (" ".intercalate numbers ++ name ++ "\n")
  let total ← paths.foldlM (fun (total : Counts) path => do
    let name := if p.operands.isEmpty then "" else " " ++ path
    match ← Task.readFile path with
    | .ok s =>
      line (.ofText s) name
      return total.add (.ofText s)
    | .error fault =>
      c.complain (shown path ++ ": " ++ fault.reason)
      if fault = .isADirectory then line .zero name
      return total) .zero
  if 1 < paths.length then line total " total"

def tee : Program := fun c => do
  let options : Options := ⟨"aip", [("append", 'a')], true, 1⟩
  let p ← options.parse c
  match ← Task.readInput with
  | .error fault => c.complain ("read error: " ++ fault.reason)
  | .ok s =>
    Task.put s
    p.operands.forM fun path => do
      match ← Task.writeFile path (p.has 'a') s with
      | .ok () => return
      | .error fault => c.complain (shown path ++ ": " ++ fault.reason)

/-- Writes a line again and again. It is taken to end once nobody can read so much. -/
def yes : Program := fun c => do
  let line := (if c.arguments.isEmpty then "y" else " ".intercalate c.arguments).toList ++ ['\n']
  Task.put (List.replicate (Task.manyBytes / line.length + 1) line).flatten
  throw (.signal 13)

/-- Cuts a line into pieces of some width, behind blanks if that is wanted. The fuel bounds the
    pieces. -/
def foldLine (width : Nat) (atBlanks : Bool) : Nat → List Char → List (List Char)
  | 0, line => [line]
  | fuel + 1, line =>
    if line.length ≤ width then [line]
    else
      let piece := line.take width
      let upToBlank := (piece.reverse.dropWhile (· ≠ ' ')).reverse
      let piece := if atBlanks && !upToBlank.isEmpty then upToBlank else piece
      piece :: foldLine width atBlanks fuel (line.drop piece.length)

def fold : Program := fun c => do
  let options : Options := ⟨"bsw:", [("bytes", 'b'), ("spaces", 's'), ("width", 'w')], true, 1⟩
  let p ← options.parse c
  let width := ((p.text? 'w').bind fun s => Text.digits? s.toList).getD 80
  let text ← Task.readOperands c p.operands
  let lines := (linesOf text).flatMap fun line => foldLine (max 1 width) (p.has 's') line.length line
  Task.put (List.intercalate ['\n'] lines ++ if text.getLast? = some '\n' then ['\n'] else [])

end PluginHost.Utility
