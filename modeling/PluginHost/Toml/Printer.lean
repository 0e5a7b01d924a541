import PluginHost.Binary64.Basic
import PluginHost.Text.Numeral
import PluginHost.Toml.Value
/-!
Writing TOML documents.

A text takes the first of these forms that shows it without escapes: on one line in double quotes or
in single quotes, else in three double or three single quotes; only then is it escaped.

Every table below the top level has a header of its own, unless it holds nothing but tables. An
array of tables has a header for each of them. A blank line precedes every header but one that
begins the document.
-/

namespace PluginHost.Toml

/-- Whether a character can only be written with an escape. Tabs and line feeds are no such
    characters. -/
def needsEscape (c : Char) : Bool :=
  (c.toNat < 0x20 && c != '\t' && c != '\n') || c.toNat == 0x7F

/-- The length of the longest run of a character. -/
def longestRun (c : Char) (s : List Char) : Nat :=
  (s.foldl (fun (longest, current) x =>
    if x = c then (max longest (current + 1), current + 1) else (longest, 0)) (0, 0)).1

/-- The escape of a character in double quotes, or the character itself. -/
def escaped (c : Char) : List Char :=
  match c with
  | '\x08' => ['\\', 'b']
  | '\t' => ['\\', 't']
  | '\n' => ['\\', 'n']
  | '\x0C' => ['\\', 'f']
  | '\r' => ['\\', 'r']
  | '"' => ['\\', '"']
  | '\\' => ['\\', '\\']
  | c =>
    if c.toNat < 0x20 || c.toNat == 0x7F then
      '\\' :: 'u' :: (Text.hexFixed 4 c.toNat).map Char.toUpper
    else [c]

/-- A text between three double quotes. Line feeds stand as they are, and so do quotes unless two
    stand right before. -/
def linesBody : Nat → List Char → List Char
  | _, [] => []
  | quotes, c :: rest =>
    if c = '"' then
      if quotes < 2 then '"' :: linesBody (quotes + 1) rest
      else '\\' :: '"' :: linesBody 0 rest
    else if c = '\n' then '\n' :: linesBody 0 rest
    else escaped c ++ linesBody 0 rest

def inDoubleQuotes (s : List Char) : List Char := '"' :: s.flatMap escaped ++ ['"']

def inSingleQuotes (s : List Char) : List Char := '\'' :: s ++ ['\'']

/-- A line feed behind the opening quotes is not part of the text. -/
def leadingLine (s : List Char) : List Char := if s.contains '\n' then ['\n'] else []

def inThreeDoubleQuotes (s : List Char) : List Char :=
  ['"', '"', '"'] ++ leadingLine s ++ linesBody 0 s ++ ['"', '"', '"']

def inThreeSingleQuotes (s : List Char) : List Char :=
  ['\'', '\'', '\''] ++ leadingLine s ++ s ++ ['\'', '\'', '\'']

def textForm (s : List Char) : List Char :=
  let hasEscapes := s.any needsEscape
  let hasLines := s.contains '\n'
  let hasBackslash := s.contains '\\'
  if !hasEscapes && !hasLines && !hasBackslash && !s.contains '"' then inDoubleQuotes s
  else if !hasEscapes && !hasLines && !s.contains '\'' then inSingleQuotes s
  else if !hasEscapes && !hasBackslash && longestRun '"' s ≤ 2 then inThreeDoubleQuotes s
  else if !hasEscapes && longestRun '\'' s ≤ 2 then inThreeSingleQuotes s
  else if hasLines then inThreeDoubleQuotes s
  else inDoubleQuotes s

def isBareKey (s : List Char) : Bool :=
  !s.isEmpty && s.all fun c => c.isAlphanum || c == '_' || c == '-'

/-- A key stands bare if it can, else in quotes on one line. -/
def keyForm (s : List Char) : List Char :=
  let hasEscapes := s.any fun c => needsEscape c || c == '\n'
  if isBareKey s then s
  else if !hasEscapes && !s.contains '\\' && !s.contains '"' then inDoubleQuotes s
  else if !hasEscapes && !s.contains '\'' then inSingleQuotes s
  else inDoubleQuotes s

/-- A number in full, without an exponent and never as an integer. -/
def floatForm (x : Binary64) : List Char :=
  let sign : List Char := if x.isNegative then ['-'] else []
  if x.isNaN then ['n', 'a', 'n']
  else if x.isInfinite then sign ++ ['i', 'n', 'f']
  else if x.significand = 0 then sign ++ ['0', '.', '0']
  else
    let (number, exponent) := x.shortest
    let digits := Text.ofNat number
    let point : Int := digits.length + exponent
    sign ++
      if 0 ≤ exponent then digits ++ List.replicate exponent.toNat '0' ++ ['.', '0']
      else if 0 < point then digits.take point.toNat ++ '.' :: digits.drop point.toNat
      else ['0', '.'] ++ List.replicate (-point).toNat '0' ++ digits

/-! Tables and documents. -/

mutual

/-- A value behind an equals sign or inside another value. -/
def inlineForm : Value → List Char
  | .str text => textForm text.toList
  | .int n => Text.ofInt n
  | .float x => floatForm x
  | .bool true => ['t', 'r', 'u', 'e']
  | .bool false => ['f', 'a', 'l', 's', 'e']
  | .datetime d => d.text
  | .arr [] => ['[', ']']
  | .arr [item] => '[' :: inlineForm item ++ [']']
  | .arr items => '[' :: itemForms items ++ ['\n', ']']
  | .table [] => ['{', '}']
  | .table entries => '{' :: ' ' :: entryForms entries ++ [' ', '}']

/-- Items on a line each, with a comma behind each. -/
def itemForms : List Value → List Char
  | [] => []
  | v :: rest => '\n' :: ' ' :: ' ' :: ' ' :: ' ' :: inlineForm v ++ ',' :: itemForms rest

/-- Assignments on one line, with a comma between. -/
def entryForms : List (String × Value) → List Char
  | [] => []
  | [(key, v)] => keyForm key.toList ++ [' ', '=', ' '] ++ inlineForm v
  | (key, v) :: rest =>
    keyForm key.toList ++ [' ', '=', ' '] ++ inlineForm v ++ ',' :: ' ' :: entryForms rest

end

/-- The tables of a value that has headers: a table, or an array that holds tables only. -/
def headedTables? : Value → Option (Bool × List Table)
  | .table entries => some (false, [entries])
  | .arr [] => none
  | .arr items =>
    (items.mapM fun (v : Value) => match v with
      | .table entries => some entries
      | _ => none).map fun tables => (true, tables)
  | _ => none

/-- The assignments among the entries of a table, a line each. -/
def assignmentLines (entries : Table) : List (List Char) :=
  entries.filterMap fun (key, v) =>
    if (headedTables? v).isSome then none
    else some (keyForm key.toList ++ [' ', '=', ' '] ++ inlineForm v)

/-- A table as it is written: its path, whether it is one of an array, and its lines. -/
structure Section where
  path : List String
  isElement : Bool
  isEmpty : Bool
  lines : List (List Char)

/-- A section without lines has a header only if its table is empty or one of an array. -/
def Section.isShown (s : Section) : Bool := s.isElement || s.isEmpty || !s.lines.isEmpty

def sectionOf (path : List String) (isElement : Bool) (entries : Table) : Section :=
  ⟨path, isElement, entries.isEmpty, assignmentLines entries⟩

mutual

/-- The sections of the tables inside a value that stands at a path. -/
def valueSections (path : List String) : Value → List Section
  | .table entries => sectionOf path false entries :: entrySections path entries
  | .arr items =>
    if (headedTables? (.arr items)).isSome then elementSections path items else []
  | _ => []

def elementSections (path : List String) : List Value → List Section
  | [] => []
  | .table entries :: rest =>
    sectionOf path true entries :: (entrySections path entries ++ elementSections path rest)
  | _ :: rest => elementSections path rest

def entrySections (path : List String) : List (String × Value) → List Section
  | [] => []
  | (key, v) :: rest => valueSections (path ++ [key]) v ++ entrySections path rest

end

def Section.header (s : Section) : List Char :=
  let path := List.intercalate ['.'] (s.path.map fun key => keyForm key.toList)
  if s.isElement then '[' :: '[' :: path ++ [']', ']'] else '[' :: path ++ [']']

def joinLines (lines : List (List Char)) : List Char := lines.flatMap fun line => line ++ ['\n']

def Section.text (s : Section) : List Char := joinLines (s.header :: s.lines)

/-- The document with the given entries at its top level, in the order given. -/
def document (entries : Table) : String :=
  let top := joinLines (assignmentLines entries)
  let headed := ((entrySections [] entries).filter Section.isShown).map Section.text
  let parts := (if top.isEmpty then [] else [top]) ++ headed
  String.ofList (List.intercalate ['\n'] parts)

end PluginHost.Toml
