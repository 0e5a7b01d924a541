import PluginHost.Toml.Scalar
import PluginHost.Toml.Value
/-!
Reading TOML documents, version 1.0 of the format.
-/

namespace PluginHost.Toml

/-! Documents under construction: what the headers and assignments of a document may still add.

A table is implicit as long as no header of its own has opened it, and dotted if a dotted key made
it. Only implicit tables can be opened by a header, and only dotted ones can be added to by a dotted
key; values and inline tables are closed. Entries stand in the order in which the document opened
them. -/

/-- A part of a document under construction. -/
inductive Node where
  | value (v : Value)
  | table (isImplicit isDotted : Bool) (entries : List (String × Node))
  /-- An array of tables; headers and keys lead into its last table. -/
  | tables (earlier : List (List (String × Node))) (last : List (String × Node))
deriving Inhabited

/-- A table under construction. -/
structure OpenTable where
  isImplicit : Bool
  isDotted : Bool
  entries : List (String × Node)
deriving Inhabited

namespace OpenTable

def node (t : OpenTable) : Node := .table t.isImplicit t.isDotted t.entries

/-- Puts a part under a key: at the place of the key if it is there, else last. -/
def set (t : OpenTable) (key : String) (n : Node) : OpenTable :=
  if t.entries.any (·.1 = key) then
    { t with entries := t.entries.map fun e => if e.1 = key then (key, n) else e }
  else { t with entries := t.entries ++ [(key, n)] }

def remove (t : OpenTable) (key : String) : OpenTable :=
  { t with entries := t.entries.filter (·.1 ≠ key) }

/-- The table that a header has opened, or the whole document. -/
def opened : OpenTable := ⟨false, false, []⟩

/-- Changes the table at the end of a path; tables that are missing on the way are made. A dotted
    key leads through implicit tables only. -/
def alter (isDotted : Bool) :
    List String → (OpenTable → Option OpenTable) → OpenTable → Option OpenTable
  | [], change, t => change t
  | key :: path, change, t =>
    match Assoc.get? t.entries key with
    | none => (alter isDotted path change ⟨true, isDotted, []⟩).map fun u => t.set key u.node
    | some (.value _) => none
    | some (.tables earlier last) =>
      (alter isDotted path change ⟨false, false, last⟩).map fun u =>
        t.set key (.tables earlier u.entries)
    | some (.table isImplicit wasDotted entries) =>
      if isDotted && !isImplicit then none
      else (alter isDotted path change ⟨isImplicit, wasDotted, entries⟩).map fun u =>
        t.set key u.node

/-- Adds a value under a key that is not taken. With a dotted key the table has to be a dotted one,
    without one it must not be. -/
def addValue (path : List String) (key : String) (v : Node) (t : OpenTable) : Option OpenTable :=
  if t.isDotted = path.isEmpty then none
  else if (Assoc.get? t.entries key).isSome then none
  else some (t.set key v)

/-- Opens a table under a key: a new one, or an implicit one that no dotted key made. Either stands
    behind all that came before its header. -/
def openTable (key : String) (t : OpenTable) : Option OpenTable :=
  match Assoc.get? t.entries key with
  | none => some (t.set key opened.node)
  | some (.table true false entries) =>
    some ((t.remove key).set key (.table false false entries))
  | some _ => none

/-- Opens one more table of the array under a key. -/
def openElement (key : String) (t : OpenTable) : Option OpenTable :=
  match Assoc.get? t.entries key with
  | none => some (t.set key (.tables [] []))
  | some (.tables earlier last) => some (t.set key (.tables (earlier ++ [last]) []))
  | some _ => none

end OpenTable

/-- A document, and the path of the table that assignments go to. -/
structure Draft where
  root : OpenTable
  current : List String
deriving Inhabited

namespace Draft

def start : Draft := ⟨.opened, []⟩

/-- An assignment under a key of one or more parts. -/
def assign (d : Draft) (path : List String) (key : String) (v : Value) : Option Draft := do
  let add := OpenTable.alter true path (OpenTable.addValue path key (.value v))
  return { d with root := ← d.root.alter false d.current add }

/-- A header `[path.key]`. -/
def header (d : Draft) (path : List String) (key : String) : Option Draft := do
  return ⟨← d.root.alter false path (OpenTable.openTable key), path ++ [key]⟩

/-- A header `[[path.key]]`. -/
def element (d : Draft) (path : List String) (key : String) : Option Draft := do
  return ⟨← d.root.alter false path (OpenTable.openElement key), path ++ [key]⟩

end Draft

mutual

/-- The value of a finished part, its entries in document order. -/
def Node.finish : Node → Value
  | .value v => v
  | .table _ _ entries => .table (finishEntries entries)
  | .tables earlier last => .arr (finishTables earlier ++ [.table (finishEntries last)])

def finishEntries : List (String × Node) → Table
  | [] => []
  | (key, n) :: rest => (key, n.finish) :: finishEntries rest

def finishTables : List (List (String × Node)) → List Value
  | [] => []
  | t :: rest => .table (finishEntries t) :: finishTables rest

end

/-! Reading a document. -/

/-- How many arrays and inline tables may stand inside one another, and how many parts a key may
    have. -/
def nestingLimit : Nat := 79

def isWhite (c : Char) : Bool := c == ' ' || c == '\t'

def skipWhite (s : List Char) : List Char := s.dropWhile isWhite

/-- What follows a comment, if one stands here: the end of its line. -/
def skipComment (s : List Char) : List Char :=
  match s with
  | '#' :: rest => rest.dropWhile isQuotable
  | _ => s

/-- What follows the end of a line, where blanks and a comment may stand first. The end of the
    document ends a line too. -/
def endLine? (s : List Char) : Option (List Char) :=
  match skipComment (skipWhite s) with
  | [] => some []
  | '\n' :: rest => some rest
  | '\r' :: '\n' :: rest => some rest
  | _ => none

/-- What follows blanks, comments and line ends. The fuel bounds the number of lines. -/
def skipLines : Nat → List Char → List Char
  | 0, s => s
  | fuel + 1, s =>
    match skipComment (skipWhite s) with
    | '\n' :: rest => skipLines fuel rest
    | '\r' :: '\n' :: rest => skipLines fuel rest
    | s => s

def isBareKeyChar (c : Char) : Bool := c.isAlphanum || c == '_' || c == '-'

/-- One part of a key: bare, or quoted on one line. -/
def keyPart? (s : List Char) : Option (String × List Char) :=
  match s with
  | '"' :: rest => (basic? false .text rest).map fun (key, rest) => (String.ofList key, rest)
  | '\'' :: rest => (literal? rest).map fun (key, rest) => (String.ofList key, rest)
  | _ =>
    let key := s.takeWhile isBareKeyChar
    if key.isEmpty then none else some (String.ofList key, s.dropWhile isBareKeyChar)

/-- The parts of a key but the last, the last, and what follows. The fuel bounds their number. -/
def key? : Nat → List Char → Option (List String × String × List Char)
  | 0, _ => none
  | fuel + 1, s => do
    let (part, rest) ← keyPart? (skipWhite s)
    match skipWhite rest with
    | '.' :: rest => do
      let (path, key, rest) ← key? fuel rest
      return (part :: path, key, rest)
    | rest => return ([], part, rest)

/-- A key and the equals sign behind it. -/
def assignee? (s : List Char) : Option (List String × String × List Char) := do
  let (path, key, rest) ← key? nestingLimit s
  match rest with
  | '=' :: rest => return (path, key, skipWhite rest)
  | _ => none

mutual

/-- A value at the start of a text, and what follows it. `depth` more arrays and inline tables may
    be entered; the fuel bounds the number of values. -/
def value? : Nat → Nat → List Char → Option (Value × List Char)
  | 0, _, _ => none
  | fuel + 1, depth, s =>
    match s with
    | '"' :: _ => (quotation? s).map fun (text, rest) => (.str (String.ofList text), rest)
    | '\'' :: _ => (quotation? s).map fun (text, rest) => (.str (String.ofList text), rest)
    | '[' :: rest =>
      match depth with
      | 0 => none
      | depth + 1 => (items? fuel depth rest).map fun (items, rest) => (.arr items, rest)
    | '{' :: rest =>
      match depth with
      | 0 => none
      | depth + 1 =>
        match skipWhite rest with
        | '}' :: rest => some (.table [], rest)
        | rest => (fields? fuel depth .opened rest).map fun (t, rest) => (t.node.finish, rest)
    | _ => scalarAt? s

/-- The items of an array and its closing bracket. A comma may follow the last item. -/
def items? : Nat → Nat → List Char → Option (List Value × List Char)
  | 0, _, _ => none
  | fuel + 1, depth, s =>
    match skipLines s.length s with
    | ']' :: rest => some ([], rest)
    | s => do
      let (item, rest) ← value? fuel depth s
      match skipLines rest.length rest with
      | ']' :: rest => return ([item], rest)
      | ',' :: rest =>
        let (items, rest) ← items? fuel depth rest
        return (item :: items, rest)
      | _ => none

/-- One or more assignments of an inline table, and its closing brace. -/
def fields? : Nat → Nat → OpenTable → List Char → Option (OpenTable × List Char)
  | 0, _, _, _ => none
  | fuel + 1, depth, t, s => do
    let (path, key, rest) ← assignee? s
    let (v, rest) ← value? fuel depth rest
    let t ← t.alter true path (OpenTable.addValue path key (.value v))
    match skipWhite rest with
    | '}' :: rest => return (t, rest)
    | ',' :: rest => fields? fuel depth t rest
    | _ => none

end

/-- A header behind its first bracket, and what follows its line. -/
def header? (d : Draft) (s : List Char) : Option (Draft × List Char) :=
  match s with
  | '[' :: rest => do
    let (path, key, rest) ← key? nestingLimit rest
    match rest with
    | ']' :: ']' :: rest => return (← d.element path key, ← endLine? rest)
    | _ => none
  | _ => do
    let (path, key, rest) ← key? nestingLimit s
    match rest with
    | ']' :: rest => return (← d.header path key, ← endLine? rest)
    | _ => none

/-- An assignment, and what follows its line. -/
def assignment? (d : Draft) (s : List Char) : Option (Draft × List Char) := do
  let (path, key, rest) ← assignee? s
  let (v, rest) ← value? (rest.length + 1) nestingLimit rest
  return (← d.assign path key v, ← endLine? rest)

/-- All lines of a document. The fuel bounds their number. -/
def lines? : Nat → Draft → List Char → Option Draft
  | 0, d, s => if s.isEmpty then some d else none
  | fuel + 1, d, s =>
    match skipLines s.length s with
    | [] => some d
    | '[' :: rest => do
      let (d, rest) ← header? d rest
      lines? fuel d rest
    | s => do
      let (d, rest) ← assignment? d s
      lines? fuel d rest

/-- The table that a document writes, in document order. A byte order mark may stand first. -/
def written? (text : String) : Option Table :=
  let s := match text.toList with
    | '\uFEFF' :: rest => rest
    | s => s
  (lines? (s.length + 1) .start s).map fun d => finishEntries d.root.entries

/-- The table that a document writes. -/
def document? (text : String) : Option Table := (written? text).map Table.sorted

end PluginHost.Toml
