import PluginHost.Regex.Reader
import PluginHost.Utility.Awk.Syntax
import PluginHost.Utility.Awk.Value
import PluginHost.Utility.Task
/-!
A program that runs: its values and tables, its record with its fields, and what it reads from and
writes to.
-/

namespace PluginHost.Utility.Awk

/-- What a parameter of a function stands for. -/
inductive Local where
  | value (v : Value)
  | table (index : Nat)
  /-- It has not shown yet whether it is a table. -/
  | open (index : Nat)
deriving Inhabited

structure Runtime where
  name : String
  functions : List Function
  globals : List (String × Value)
  tables : Array (Table Value)
  /-- The tables that have names everywhere. -/
  tableNames : List (String × Nat)
  frame : List (String × Local)
  depth : Nat
  record : String
  fields : Array Value
  /-- Which ranges are under way. -/
  active : List Nat
  /-- What is left of the file that records come from. -/
  rest : Option (List Char)
  /-- The next argument that may name a file, and whether one did. -/
  nextArgument : Nat
  hasRead : Bool
  /-- Files that were opened to write. -/
  written : List String
  /-- Texts for commands, each with its pieces, the newest first. -/
  piped : List (String × List (List Char))
  /-- What is left of files and commands that are read from. -/
  sources : List ((Bool × String) × List Char)
  regexes : List (String × Regex)
  seed : Nat
  status : Nat
deriving Inhabited

/-- Why the rest of an action is left out. -/
inductive Jump where
  | next
  | exit
  | give (v : Value)
  | break
  | continue
  | fault (message : String)
deriving Inhabited

abbrev Machine (α : Type) := ExceptT Jump (StateT Runtime Task) α

/-- The value of a text that is assigned from outside, in which escapes count. -/
def assignedValue (s : String) : Value :=
  let quoted := s.toList.flatMap fun c => if c = '"' then ['\\', '"'] else [c]
  match Token.takeText (quoted.length + 2) [] (quoted ++ ['"']) with
  | some (text, _) => .ofInput text
  | none => .ofInput s

/-- The name and the text of an assignment. -/
def assignment? (s : String) : Option (String × String) :=
  let name := s.toList.takeWhile fun c => c.isAlphanum || c = '_'
  match s.toList.drop name.length with
  | '=' :: rest =>
    if name.head?.any Token.isNameStart then some (String.ofList name, String.ofList rest) else none
  | _ => none

namespace Machine

def fault {α : Type} (message : String) : Machine α := throw (.fault message)

def global (name : String) : Machine Value := return ((← get).globals.lookup name).getD .unset

def setGlobal (name : String) (v : Value) : Machine Unit :=
  modify fun r => { r with globals := (name, v) :: r.globals.filter (·.1 ≠ name) }

/-- The text of a value that is set for the whole program. -/
def setting (name : String) : Machine String := return (← global name).toText "%.6g"

def convert : Machine String := setting "CONVFMT"

def textOf (v : Value) : Machine String := return v.toText (← convert)

/-- The expression that a text writes. -/
def regexOf (s : String) : Machine Regex := do
  match (← get).regexes.lookup s with
  | some r => return r
  | none =>
    match Regex.ofText ⟨true, true, true, true⟩ s.toList with
    | .error f => fault ("regular expression compile failed (" ++ f.message ++ ")\n" ++ s)
    | .ok r =>
      modify fun m => { m with regexes := (s, r) :: m.regexes.take 20 }
      return r

def subject (s : String) : Subject := ⟨s.toList.toArray, false⟩

/-- The parts between the matches of an expression that are not empty. The fuel bounds them. -/
def partsBetween (r : Regex) (s : Subject) : Nat → Nat → Nat → List (List Char)
  | 0, start, _ => [(s.chars.extract start s.chars.size).toList]
  | fuel + 1, start, from' =>
    match r.search? s from' with
    | none => [(s.chars.extract start s.chars.size).toList]
    | some m =>
      if m.stop = m.start then
        if s.chars.size ≤ m.stop then [(s.chars.extract start s.chars.size).toList]
        else partsBetween r s fuel start (m.stop + 1)
      else (s.chars.extract start m.start).toList :: partsBetween r s fuel m.stop m.stop

/-- The parts of a text, as a separator cuts it. -/
def parts (separator : String) (regex : Option Regex) (hasLines : Bool) (s : String) :
    Machine (List String) := do
  let cs := s.toList
  if cs.isEmpty then return []
  let pieces ← match regex, separator.toList with
    | some r, _ => pure (partsBetween r (subject s) (cs.length + 1) 0 0)
    | none, [' '] =>
      let isBlank := fun c => c = ' ' || c = '\t' || c = '\n'
      pure ((cs.splitOnP isBlank).filter (!·.isEmpty))
    | none, [] => pure (cs.map ([·]))
    | none, [c] => pure (cs.splitOnP fun e => e = c || (hasLines && e = '\n'))
    | none, separator => do
      let r ← regexOf (String.ofList separator)
      let r := if hasLines then Regex.alt r (.char '\n') else r
      pure (partsBetween r (subject s) (cs.length + 1) 0 0)
  return pieces.map String.ofList

/-- Takes a text as the record. -/
def setRecord (s : String) : Machine Unit := do
  let hasLines := (← setting "RS").isEmpty
  let fields ← parts (← setting "FS") none hasLines s
  modify fun r => { r with record := s, fields := (fields.map Value.ofInput).toArray }

/-- Makes up the record anew from its fields. -/
def joinFields : Machine Unit := do
  let convert ← convert
  let separator ← setting "OFS"
  modify fun r => { r with
    record := separator.intercalate (r.fields.toList.map (·.toText convert)) }

/-- The highest number of a field. -/
def mostFields : Nat := 0xFFFF

/-- Makes the number of fields what it is to be. -/
def setFieldCount (count : Nat) : Machine Unit := do
  let count := min count mostFields
  modify fun r => { r with
    fields := r.fields.take count ++ Array.replicate (count - r.fields.size) (.text "") }

def fieldIndex (v : Value) : Machine Nat := do
  let n := truncated v.toNumber
  if n < 0 then fault ("negative field index $" ++ toString n) else return n.toNat

def field (n : Nat) : Machine Value := do
  let r ← get
  return if n = 0 then .ofInput r.record else r.fields[n - 1]?.getD .unset

def setField (n : Nat) (v : Value) : Machine Unit := do
  if n = 0 then setRecord (← textOf v)
  else
    if (← get).fields.size < n then setFieldCount n
    modify fun r => { r with fields := r.fields.setIfInBounds (n - 1) v }
    joinFields

/-- The value of a name. -/
def value (name : String) : Machine Value := do
  match (← get).frame.lookup name with
  | some (.value v) => return v
  | some (.open _) => return .unset
  | some (.table _) => fault ("type error: array " ++ name ++ " used as a scalar")
  | none => if name = "NF" then return .ofNat (← get).fields.size else global name

def setValue (name : String) (v : Value) : Machine Unit := do
  let frame := (← get).frame
  if (frame.lookup name).isSome then
    modify fun r => { r with frame := (name, .value v) :: frame.filter (·.1 ≠ name) }
  else if name = "NF" then
    setFieldCount (truncated v.toNumber).toNat
    joinFields
  else setGlobal name v

def newTable : Machine Nat := do
  let index := (← get).tables.size
  modify fun r => { r with tables := r.tables.push .empty }
  return index

/-- The table of a name. -/
def tableOf (name : String) : Machine Nat := do
  let r ← get
  let bind := fun (index : Nat) => modify fun (r : Runtime) => { r with
    frame := (name, .table index) :: r.frame.filter (·.1 ≠ name) }
  match r.frame.lookup name with
  | some (.table index) => return index
  | some (.open index) =>
    bind index
    return index
  | some (.value .unset) =>
    let index ← newTable
    bind index
    return index
  | some (.value _) => fault ("type error: scalar " ++ name ++ " used as an array")
  | none =>
    match r.tableNames.lookup name with
    | some index => return index
    | none =>
      let index ← newTable
      modify fun r => { r with tableNames := (name, index) :: r.tableNames }
      return index

/-- What an argument that is a bare name stands for. -/
def argumentOf (name : String) : Machine Local := do
  let r ← get
  match r.frame.lookup name with
  | some (.value .unset) =>
    let index ← newTable
    modify fun r => { r with frame := (name, .open index) :: r.frame.filter (·.1 ≠ name) }
    return .open index
  | some l => return l
  | none =>
    match if name = "NF" then some (Value.ofNat r.fields.size) else r.globals.lookup name with
    | some v => return .value v
    | none =>
      let isKnown := (r.tableNames.lookup name).any fun index =>
        (r.tables[index]?).any fun t => 0 < t.size
      let index ← tableOf name
      return if isKnown then .table index else .open index

def modifyTable (index : Nat) (f : Table Value → Table Value) : Machine Unit :=
  modify fun r => { r with tables := r.tables.modify index f }

/-- The value that a key leads to. An entry is made if there is none. -/
def element (index : Nat) (key : Key) : Machine Value := do
  let t := (← get).tables[index]?.getD .empty
  let (t, place) := t.find key (some .unset)
  modifyTable index fun _ => t
  return (place.bind t.valueAt?).getD .unset

def hasElement (index : Nat) (key : Key) : Machine Bool := do
  let t := (← get).tables[index]?.getD .empty
  let (t, place) := t.find key none
  modifyTable index fun _ => t
  return place.isSome

/-- The first record of a text and what follows it. -/
def takeRecord (separator : String) (s : List Char) : Machine (Option (List Char × List Char)) := do
  match separator.toList with
  | [] =>
    let s := s.dropWhile (· = '\n')
    if s.isEmpty then return none
    let (record, rest) := upToBlank (s.length + 1) [] s
    return some (record, rest)
  | [c] =>
    if s.isEmpty then return none
    let record := s.takeWhile (· ≠ c)
    return some (record, s.drop (record.length + 1))
  | separator =>
    if s.isEmpty then return none
    let r ← regexOf (String.ofList separator)
    let subject : Subject := ⟨s.toArray, false⟩
    match r.search? subject 0 with
    | some m =>
      if m.start < m.stop then return some (s.take m.start, s.drop m.stop)
      else return some (s, [])
    | none => return some (if s.getLast? = some '\n' then s.dropLast else s, [])
where
  upToBlank : Nat → List Char → List Char → List Char × List Char
    | 0, done, s => (done.reverse, s)
    | _, done, [] => (done.reverse, [])
    | _, done, '\n' :: '\n' :: rest => (done.reverse, rest.dropWhile (· = '\n'))
    | _, done, ['\n'] => (done.reverse, [])
    | fuel + 1, done, c :: rest => upToBlank fuel (c :: done) rest

/-- Says that a file could not be opened. -/
def cannotOpen {α : Type} (path : String) (f : IoFault) : Machine α := do
  Task.putError ((← get).name ++ ": cannot open \"" ++ path ++ "\" (" ++ f.reason ++ ")\n")
  Task.exit 2

/-- Opens the next file that arguments name. The fuel bounds the arguments. -/
def openNext : Nat → Machine Bool
  | 0 => return false
  | fuel + 1 => do
    let r ← get
    let use := fun (path : String) => show Machine Bool from do
      match ← Task.readFile path with
      | .ok s =>
        setGlobal "FNR" (.number 0)
        modify fun r => { r with rest := some s, hasRead := true }
        return true
      | .error .isADirectory =>
        Task.putError ((← get).name ++ ": read error (Is a directory)\n")
        Task.exit 2
      | .error f => cannotOpen path f
    if truncated (← global "ARGC").toNumber ≤ r.nextArgument then
      if r.hasRead then return false else use "-"
    else
      modify fun r => { r with nextArgument := r.nextArgument + 1 }
      let arguments ← tableOf "ARGV"
      let path ← if ← hasElement arguments (.number r.nextArgument) then
          textOf (← element arguments (.number r.nextArgument))
        else pure ""
      if path.isEmpty then openNext fuel
      else
        match assignment? path with
        | some (name, text) =>
          setValue name (assignedValue text)
          openNext fuel
        | none =>
          setGlobal "FILENAME" (.text path)
          use path

/-- The next record of the files that arguments name. The fuel bounds the files. -/
def nextRecord : Nat → Machine (Option String)
  | 0 => return none
  | fuel + 1 => do
    match (← get).rest with
    | none =>
      if ← openNext mostFields then nextRecord fuel else return none
    | some s =>
      match ← takeRecord (← setting "RS") s with
      | none =>
        modify fun r => { r with rest := none }
        nextRecord fuel
      | some (record, rest) =>
        modify fun r => { r with rest := some rest }
        let count := fun (name : String) => do
          setGlobal name (.number ((← global name).toNumber + 1))
        count "NR"
        count "FNR"
        return some (String.ofList record)

/-- The next record of a file or of what a command writes. There is none at the end, and an error if it
    cannot be read. -/
def nextFrom (isCommand : Bool) (name : String) : Machine (Except Unit (Option String)) := do
  let key := (isCommand, name)
  let text ← match (← get).sources.lookup key with
    | some s => pure (some s)
    | none =>
      if isCommand then
        let (_, s) ← Task.runCommand "/bin/sh" name [] true
        pure (some s)
      else match ← Task.readFile name with
        | .ok s => pure (some s)
        | .error _ => pure none
  match text with
  | none => return .error ()
  | some s =>
    let keep := fun (s : List Char) => modify fun (r : Runtime) => { r with
      sources := (key, s) :: r.sources.filter (·.1 ≠ key) }
    match ← takeRecord (← setting "RS") s with
    | none =>
      keep []
      return .ok none
    | some (record, rest) =>
      keep rest
      return .ok (some (String.ofList record))

/-- Writes a text where a sink leads to. -/
def send (text : String) (sink : Option (Sink × String)) : Machine Unit := do
  match sink with
  | none => Task.putText text
  | some (.command, command) =>
    modify fun r => { r with
      piped := if (r.piped.lookup command).isSome then
          r.piped.map fun p => if p.1 = command then (command, text.toList :: p.2) else p
        else r.piped ++ [(command, [text.toList])] }
  | some (kind, path) =>
    if path = "-" then Task.putText text
    else
      let isOpen := (← get).written.contains path
      match ← Task.writeFile path (isOpen || kind = .append) text.toList with
      | .ok () => if !isOpen then modify fun r => { r with written := path :: r.written }
      | .error f =>
        Task.putError
          ((← get).name ++ ": cannot open \"" ++ path ++ "\" for output (" ++ f.reason ++ ")\n")
        Task.exit 2

/-- Closes what has a name. Commands are run once all is there that they read. -/
def close (name : String) : Machine Int := do
  let r ← get
  let isKnown := r.written.contains name || r.sources.any (·.1.2 = name)
  modify fun r => { r with
    written := r.written.filter (· ≠ name), sources := r.sources.filter (·.1.2 ≠ name) }
  match r.piped.lookup name with
  | some pieces =>
    modify fun r => { r with piped := r.piped.filter (·.1 ≠ name) }
    let (status, _) ← Task.runCommand "/bin/sh" name pieces.reverse.flatten false
    return status
  | none => return if isKnown then 0 else -1

end Machine

end PluginHost.Utility.Awk
