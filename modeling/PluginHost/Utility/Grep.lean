import PluginHost.Regex.Reader
import PluginHost.Shell.Pattern
import PluginHost.Utility.Task
/-!
The utility that searches lines.
-/

namespace PluginHost.Utility

/-- What is searched for, and what is told of it. -/
structure Search where
  expressions : List Regex
  ignoresCase : Bool
  isInverted : Bool
  /-- How many lines are looked for at most. -/
  most : Option Nat
  before : Nat
  after : Nat
  hasContext : Bool
  onlyParts : Bool
  hasNumbers : Bool
  hasOffsets : Bool
  hasNames : Bool
deriving Inhabited

namespace Search

/-- The first of the matches of all expressions, of which the longest counts. -/
def find? (q : Search) (s : Subject) (start : Nat) : Option Regex.Match :=
  q.expressions.foldl (fun best r => match best, r.search? s start with
    | none, found => found
    | some m, none => some m
    | some m, some n =>
      if n.start < m.start || (n.start = m.start && m.stop < n.stop) then some n else some m) none

/-- All matches in a line that are not empty. The fuel bounds them. -/
def all (q : Search) (s : Subject) : Nat → Nat → List Regex.Match
  | 0, _ => []
  | fuel + 1, start =>
    if s.chars.size ≤ start then []
    else
      match q.find? s start with
      | none => []
      | some m => if m.stop = m.start then all q s fuel (m.stop + 1) else m :: all q s fuel m.stop

def subject (q : Search) (line : List Char) : Subject := ⟨line.toArray, q.ignoresCase⟩

/-- Whether a line is one of those that are looked for. -/
def selects (q : Search) (line : List Char) : Bool :=
  (q.expressions.any fun r => r.isIn (q.subject line)) != q.isInverted

/-- A line with its number and where it starts. -/
structure Numbered where
  line : List Char
  number : Nat
  offset : Nat
  isSelected : Bool

/-- Lines with their numbers. Once enough are selected, only lines of context follow. -/
def mark (q : Search) : Nat → Nat → Nat → List (List Char) → List Numbered
  | _, _, _, [] => []
  | number, offset, count, line :: rest =>
    if q.most.any (· ≤ count) then
      ((line :: rest).take q.after).zipIdx.map fun (line, n) => ⟨line, number + n, 0, false⟩
    else
      let isSelected := q.selects line
      ⟨line, number, offset, isSelected⟩ ::
        mark q (number + 1) (offset + line.length + 1) (if isSelected then count + 1 else count) rest

/-- What stands in front of a line. -/
def head (q : Search) (name : String) (n : Numbered) (offset : Nat) (separator : Char) : List Char :=
  (if q.hasNames then name.toList ++ [separator] else []) ++
    (if q.hasNumbers then Text.ofNat n.number ++ [separator] else []) ++
    (if q.hasOffsets then Text.ofNat (n.offset + offset) ++ [separator] else [])

/-- What is shown of a line. -/
def shown (q : Search) (name : String) (n : Numbered) : List (List Char) :=
  let separator := if n.isSelected then ':' else '-'
  if q.onlyParts then
    if !n.isSelected || q.isInverted then []
    else
      let s := q.subject n.line
      (q.all s (n.line.length + 1) 0).map fun m =>
        q.head name n m.start separator ++ m.group s 0
  else [q.head name n 0 separator ++ n.line]

/-- Lines that are selected, and those around them, with marks between groups. `last` is the number of
    the line that was shown last. -/
def withContext (q : Search) (name : String) (near : Nat → Bool) :
    Option Nat → List Numbered → List (List Char)
  | _, [] => []
  | last, n :: rest =>
    if near n.number then
      let mark := if q.hasContext && last.any (· + 1 < n.number) then [['-', '-']] else []
      mark ++ q.shown name n ++ withContext q name near (some n.number) rest
    else withContext q name near last rest

/-- The lines that are shown of a text, and how many are selected. -/
def results (q : Search) (name : String) (text : List Char) : List (List Char) × Nat :=
  let lines := q.mark 1 0 0 (linesOf text)
  let selected := lines.filter (·.isSelected)
  if q.before = 0 && q.after = 0 then
    if q.hasContext then
      (q.withContext name (fun n => selected.any (·.number = n)) none lines, selected.length)
    else (selected.flatMap (q.shown name), selected.length)
  else
    let near := fun n => selected.any fun m => m.number ≤ n + q.before && n ≤ m.number + q.after
    (q.withContext name near none lines, selected.length)

end Search

/-- What a pattern is searched as. -/
def expression (c : Call) (p : Parsed) (isFixed isExtended : Bool) (text : List Char) : Task Regex := do
  let r ← if isFixed then
      pure (text.foldl (fun r ch => if r = .empty then .char ch else .seq r (.char ch)) Regex.empty)
    else
      match Regex.ofText ⟨isExtended, false, false, true⟩ text with
      | .ok r => pure r
      | .error fault => c.fail fault.message 2
  if p.has 'x' then return .seq (.anchor .start) (.seq r (.anchor .stop))
  else if p.has 'w' then return .seq (.anchor .noWordBefore) (.seq r (.anchor .noWordAfter))
  else return r

/-- The files below a directory with their paths. The fuel bounds how deep they lie. -/
def filesBelow (path : String) : Entry → List String
  | .file _ => [path]
  | .directory entries => go entries
where
  go : List (String × Entry) → List String
    | [] => []
    | (name, e) :: rest =>
      filesBelow (if path.isEmpty then Octets.encode name else below path (Octets.encode name)) e ++
        go rest

/-- Whether the name of a path is one of those that options choose. -/
def isWanted (p : Parsed) (path : String) : Bool :=
  let matching := fun (letter : Char) => (p.found.filter (·.1 = letter)).map fun f =>
    Shell.Glob.isMatch (Shell.Glob.ofMarked (f.2.toList.map (·, false))) (baseName path).toList
  let included := matching 'N'
  (included.isEmpty || included.contains true) && !(matching 'X').contains true

def grepOptions : Options :=
  ⟨"A:B:C:EFGPHhIcD:d:e:f:ilLm:noqrRsTUvwxyzZabN:X:0::",
    [("extended-regexp", 'E'), ("fixed-strings", 'F'),
    ("basic-regexp", 'G'), ("perl-regexp", 'P'), ("regexp", 'e'), ("file", 'f'), ("ignore-case", 'i'),
    ("invert-match", 'v'), ("word-regexp", 'w'), ("line-regexp", 'x'), ("count", 'c'),
    ("files-without-match", 'L'), ("files-with-matches", 'l'), ("max-count", 'm'),
    ("only-matching", 'o'), ("quiet", 'q'), ("silent", 'q'), ("no-messages", 's'),
    ("byte-offset", 'b'), ("with-filename", 'H'), ("no-filename", 'h'), ("line-number", 'n'),
    ("after-context", 'A'), ("before-context", 'B'), ("context", 'C'), ("text", 'a'),
    ("recursive", 'r'), ("dereference-recursive", 'R'), ("include", 'N'), ("exclude", 'X'),
    ("color", '0'), ("colour", '0'), ("null", 'Z')], true, 2⟩

def grepUsage : String := "Usage: grep [OPTION]... PATTERNS [FILE]...\n"

/-- Reads the options. A number alone stands for lines of context. -/
def grepParsed (c : Call) : Task Parsed := do
  let words := c.arguments.map fun word =>
    match word.toList with
    | '-' :: d :: more =>
      if d.isDigit && more.all Char.isDigit then "-C" ++ String.ofList (d :: more) else word
    | _ => word
  grepOptions.parseUnder { c with arguments := words } grepUsage

/-- Searches one text and tells what was found. Whether something was found, is given. -/
def searchOne (c : Call) (p : Parsed) (q : Search) (name : String) (text : List Char) : Task Bool := do
  let (lines, count) := q.results name text
  let isBinary := text.contains (Char.ofNat 0) && !p.has 'a'
  let named := if q.hasNames then name.toList ++ [':'] else []
  if p.has 'q' then return 0 < count
  if p.has 'L' then
    if count = 0 then Task.putLine name.toList
    return 0 < count
  if p.has 'l' then
    if 0 < count then Task.putLine name.toList
    return 0 < count
  if p.has 'c' then Task.putLine (named ++ Text.ofNat count)
  else if isBinary then
    if 0 < count then Task.putText (c.name ++ ": " ++ name ++ ": binary file matches\n")
  else Task.putLines lines
  return 0 < count

/-- Searches what an operand names, and all below it if that is wanted. -/
def searchOperand (c : Call) (p : Parsed) (q : Search) (path : String) : Task Bool := do
  let isDeep := p.has 'r' || p.has 'R'
  let complain := fun (path : String) (fault : IoFault) => show Task Unit from do
    if !p.has 's' then c.say (path ++ ": " ++ fault.reason)
    Task.setStatus 2
  let paths ← match path, ← Task.entry (if path.isEmpty then "." else path) with
    | "-", _ => pure ["-"]
    | path, .ok (.directory entries) =>
      if isDeep then pure ((filesBelow path (.directory entries)).filter (isWanted p))
      else pure [path]
    | path, _ => pure [path]
  paths.foldlM (fun found path => do
    match ← Task.readFile path with
    | .ok s =>
      return (← searchOne c p q (if path = "-" then "(standard input)" else path) s) || found
    | .error fault =>
      complain path fault
      if fault = .isADirectory && p.has 'c' then
        let _ ← searchOne c p q path []
      return found) false

/-- Searches for a pattern that is written in one of several ways. -/
def grep (style : Option Char) : Program := fun c => do
  let p ← grepParsed c
  let style := (p.last? ['E', 'F', 'G', 'P']) <|> style
  let given ← p.found.filterMapM fun (letter, text) => do
    match letter with
    | 'e' => return some (text.toList.splitOnP (· = '\n'))
    | 'f' =>
      match ← Task.readFile text with
      | .ok s => return some (linesOf s)
      | .error fault => c.fail (text ++ ": " ++ fault.reason) 2
    | _ => return none
  let hasPatterns := p.has 'e' || p.has 'f'
  if !hasPatterns && p.operands.isEmpty then
    Task.putError grepUsage
    c.advise 2
  let (patterns, paths) := if hasPatterns then (given.flatten, p.operands)
    else (((p.operands.head?.getD "").toList.splitOnP (· = '\n')), p.operands.drop 1)
  let isDeep := p.has 'r' || p.has 'R'
  let number := fun (letter : Char) (message : String → String) => show Task (Option Nat) from
    match p.text? letter with
    | none => return none
    | some text => match Text.digits? text.toList with
      | some n => return some n
      | none => c.fail (message text) 2
  let badContext := fun (text : String) => text ++ ": invalid context length argument"
  let around ← number 'C' badContext
  let before ← number 'B' badContext
  let after ← number 'A' badContext
  let most ← number 'm' fun _ => "invalid max count"
  let isExtended := style = some 'E' || style = some 'P'
  let expressions ← patterns.mapM (expression c p (style = some 'F') isExtended)
  let hasNames := match p.last? ['H', 'h'] with
    | some letter => letter == 'H'
    | none => decide (1 < paths.length) || isDeep
  let hasContext := before.isSome || after.isSome || around.isSome
  let q : Search := {
    expressions, ignoresCase := p.has 'i' || p.has 'y', isInverted := p.has 'v', most,
    before := (before <|> around).getD 0, after := (after <|> around).getD 0, hasContext,
    onlyParts := p.has 'o', hasNumbers := p.has 'n', hasOffsets := p.has 'b', hasNames }
  let paths := if !paths.isEmpty then paths else if isDeep then [""] else ["-"]
  let found ← paths.foldlM (fun found path => do
    if found && p.has 'q' then return true
    else return (← searchOperand c p q path) || found) false
  if found && p.has 'q' then Task.setStatus 0
  else if (← get).status = 0 && !found then Task.setStatus 1

end PluginHost.Utility
