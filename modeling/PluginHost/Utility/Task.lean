import PluginHost.Disk.Disk
import PluginHost.Program.Program
import PluginHost.Text.Utf8
/-!
Utilities: programs that read files or their input, write to their output, and end.

All texts are octets. What a utility reads is there before it starts, and what it writes is kept in
order until it has ended. Options are words that begin with a dash, which may stand among the operands. Entries are
put on the disk, moved and taken away together with what says whether they may be run.
-/

namespace PluginHost.Utility

/-- What a utility reads when it reads no file. -/
inductive Input where
  /-- What lies in a file can be read again. -/
  | text (rest : List Char) (isFile : Bool)
  /-- One character again and again. -/
  | endless (c : Char)
  | directory
  | closed
deriving Inhabited

/-- What a command leaves that a utility has run: what it wrote, in order, and its status. -/
structure CommandResult where
  disk : Disk
  runnable : List (List String)
  writes : List (Bool × List Char)
  status : Nat
deriving Inhabited

/-- Where a utility has got to. -/
structure Work where
  disk : Disk
  input : Input
  /-- What was written, the newest first, with a mark on errors. -/
  writes : List (Bool × List Char)
  status : Nat
  /-- Files that may be run. -/
  runnable : List (List String)
  /-- Runs a command of a shell that has a name on what it reads. -/
  command : Disk → List (List String) → String → String → List Char → CommandResult
deriving Inhabited

/-- A part of the work of a utility. It may end the work with a status. -/
abbrev Task (α : Type) := ExceptT ExitStatus (StateM Work) α

/-- How a utility is called. -/
structure Call where
  /-- The name that messages start with. -/
  name : String
  arguments : List String
  environment : List (String × String)

/-- What one call of a utility does. -/
abbrev Program := Call → Task Unit

namespace Task

def exit {α : Type} (status : Nat) : Task α := throw (.code status)

def disk : Task Disk := return (← get).disk

def setDisk (disk : Disk) : Task Unit := modify fun w => { w with disk }

def setStatus (status : Nat) : Task Unit := modify fun w => { w with status }

/-- Writes a text to the output. -/
def put (s : List Char) : Task Unit :=
  if s.isEmpty then return else modify fun w => { w with writes := (false, s) :: w.writes }

def putText (s : String) : Task Unit := put s.toList

/-- Writes a line. -/
def putLine (s : List Char) : Task Unit := put (s ++ ['\n'])

/-- Writes lines. -/
def putLines (lines : List (List Char)) : Task Unit := put (lines.flatMap (· ++ ['\n']))

/-- Writes to where errors go. -/
def putError (s : String) : Task Unit :=
  modify fun w => { w with writes := (true, s.toList) :: w.writes }

end Task

/-- A text between single quotes, as a shell reads it. -/
def quoted (s : String) : String :=
  let pieces := s.toList.splitOnP (· = '\'')
  "'" ++ "'\\''".intercalate (pieces.map String.ofList) ++ "'"

/-- Whether a shell takes all characters of a text as they stand. -/
def isPlain (s : String) : Bool :=
  !s.isEmpty && s.toList.all fun c =>
    c.isAlphanum || c ∈ ['-', '_', '.', '/', ':', ',', '+', '@', '%', ']', '\x7b', '\x7d'] ||
      128 ≤ c.toNat

/-- A path in a message: in quotes only if it has to be. -/
def shown (s : String) : String := if isPlain s then s else quoted s

namespace Call

/-- Writes a message under the name of the utility. -/
def say (c : Call) (message : String) : Task Unit := Task.putError (c.name ++ ": " ++ message ++ "\n")

/-- Writes a message; the utility will fail in the end. -/
def complain (c : Call) (message : String) : Task Unit := do
  c.say message
  Task.setStatus 1

/-- Ends with a message. -/
def fail {α : Type} (c : Call) (message : String) (status : Nat) : Task α := do
  c.say message
  Task.exit status

/-- Ends with a hint where to read more. -/
def advise {α : Type} (c : Call) (status : Nat) : Task α := do
  Task.putError ("Try '" ++ c.name ++ " --help' for more information.\n")
  Task.exit status

/-- Ends with a message and a hint where to read more. -/
def misuse {α : Type} (c : Call) (message : String) (status : Nat) : Task α := do
  c.say message
  c.advise status

/-- Ends because there are no operands. -/
def noOperand {α : Type} (c : Call) : Task α := c.misuse "missing operand" 1

end Call

namespace Task

/-- Runs a command of a shell on a text. What it writes to its output is given if it is to be read, and
    goes where the output of the utility goes if not. -/
def runCommand (shell command : String) (input : List Char) (isRead : Bool) :
    Task (Nat × List Char) := do
  let w ← get
  let r := w.command w.disk w.runnable shell command input
  let passed := if isRead then r.writes.filter (·.1) else r.writes
  set { w with disk := r.disk, runnable := r.runnable, writes := passed.reverse ++ w.writes }
  return (r.status, if isRead then ((r.writes.filter (!·.1)).map (·.2)).flatten else [])

/-- How much is read of what has no end. -/
def manyBytes : Nat := 0x20000

/-- Reads all of the input. -/
def readInput : Task (Except IoFault (List Char)) := do
  match (← get).input with
  | .text rest isFile =>
    modify fun w => { w with input := .text [] isFile }
    return .ok rest
  | .endless c => return .ok (List.replicate manyBytes c)
  | .directory => return .error .isADirectory
  | .closed => return .error (.other "Bad file descriptor")

/-- Reads a file, or the input where a path names that. -/
def readFile (path : String) : Task (Except IoFault (List Char)) := do
  match path with
  | "-" | "/dev/stdin" | "/dev/fd/0" => readInput
  | "/dev/null" => return .ok []
  | "/dev/zero" => return .ok (List.replicate manyBytes (Char.ofNat 0))
  | path => return ((← disk).read (Octets.decode path)).map Octets.ofBytes

/-- Writes a file anew, or at its end. -/
def writeFile (path : String) (isAppended : Bool) (s : List Char) : Task (Except IoFault Unit) := do
  match path with
  | "/dev/null" => return .ok ()
  | "/dev/stdout" | "/dev/fd/1" =>
    put s
    return .ok ()
  | "/dev/stderr" | "/dev/fd/2" =>
    putError (String.ofList s)
    return .ok ()
  | path =>
    let name := Octets.decode path
    let disk ← disk
    let old := if isAppended then (disk.read name).toOption.getD [] else []
    match disk.write name (old ++ Octets.toBytes s) with
    | .ok disk =>
      setDisk disk
      return .ok ()
    | .error fault => return .error fault

/-- Reads what an operand names. Without success there is a message. -/
def readOperand (c : Call) (path : String) : Task (Option (List Char)) := do
  match ← readFile path with
  | .ok s => return some s
  | .error fault =>
    c.complain (shown path ++ ": " ++ fault.reason)
    return none

/-- Reads all operands one after another, or the input if there are none. -/
def readOperands (c : Call) (paths : List String) : Task (List Char) := do
  let texts ← (if paths.isEmpty then ["-"] else paths).mapM (readOperand c)
  return (texts.filterMap id).flatten

end Task

/-- The lines of a text without their ends. What follows the last line end is a line if it is not
    empty. -/
def linesOf (s : List Char) : List (List Char) :=
  let parts := s.splitOnP (· = '\n')
  if parts.getLast? = some [] then parts.dropLast else parts

/-- The lines of a text with their ends. -/
def wholeLines (s : List Char) : List (List Char) :=
  let lines := linesOf s
  if s.getLast? = some '\n' || s.isEmpty then lines.map (· ++ ['\n'])
  else lines.dropLast.map (· ++ ['\n']) ++ lines.getLast?.toList

/-! Options. -/

/-- Options that a utility has. Each has a letter; some have long names. -/
structure Options where
  /-- The letters; a colon marks those with a text, two those that may have one. -/
  letters : String
  long : List (String × Char)
  /-- Whether options may stand behind operands. -/
  mayFollow : Bool
  /-- The status where there is a mistake. -/
  status : Nat

/-- Options that were found, in order, and the operands. -/
structure Parsed where
  found : List (Char × String)
  operands : List String

namespace Parsed

def has (p : Parsed) (letter : Char) : Bool := p.found.any (·.1 = letter)

/-- The text of an option; of several the last one counts. -/
def text? (p : Parsed) (letter : Char) : Option String :=
  (p.found.filter (·.1 = letter)).getLast?.map (·.2)

/-- The one of some options that was given last. -/
def last? (p : Parsed) (letters : List Char) : Option Char :=
  (p.found.filter fun f => letters.contains f.1).getLast?.map (·.1)

end Parsed

namespace Options

inductive Taking where
  | nothing
  | required
  | optional
deriving DecidableEq

/-- Whether there is an option with a letter, and whether it has a text. -/
def taking? (o : Options) (letter : Char) : Option Taking :=
  match o.letters.toList.dropWhile (· ≠ letter) with
  | _ :: ':' :: ':' :: _ => some .optional
  | _ :: ':' :: _ => some .required
  | c :: _ => if c = ':' then none else some .nothing
  | [] => none

/-- The letter of a long option, of which the start may stand for the whole. -/
def long? (o : Options) (name : String) : Option Char :=
  match o.long.lookup name with
  | some letter => some letter
  | none =>
    match (o.long.filter fun l => name.toList.isPrefixOf l.1.toList).map (·.2) with
    | letter :: rest => if rest.all (· = letter) then some letter else none
    | [] => none

/-- Ends because of a mistake; how to use the utility is told behind the message. -/
def misuse {α : Type} (o : Options) (c : Call) (usage message : String) : Task α := do
  c.say message
  Task.putError usage
  c.advise o.status

/-- Tells options from operands. The fuel bounds the letters. -/
def parseWithin (o : Options) (c : Call) (usage : String) : Nat → List String → Task Parsed
  | 0, _ => return ⟨[], []⟩
  | fuel + 1, words => do
    let found := fun (letter : Char) (text : String) (rest : List String) => do
      let p ← parseWithin o c usage fuel rest
      return { p with found := (letter, text) :: p.found }
    match words with
    | [] => return ⟨[], []⟩
    | "--" :: rest => return ⟨[], rest⟩
    | word :: rest =>
      match word.toList with
      | '-' :: '-' :: name =>
        let text := name.takeWhile (· ≠ '=')
        let value := name.drop text.length
        let name := String.ofList text
        match o.long? name with
        | none => o.misuse c usage ("unrecognized option '--" ++ name ++ "'")
        | some letter =>
          match value, o.taking? letter, rest with
          | '=' :: _, some .nothing, _ | '=' :: _, none, _ =>
            o.misuse c usage ("option '--" ++ name ++ "' doesn't allow an argument")
          | '=' :: value, _, rest => found letter (String.ofList value) rest
          | _, some .required, [] =>
            o.misuse c usage ("option '--" ++ name ++ "' requires an argument")
          | _, some .required, value :: rest => found letter value rest
          | _, _, rest => found letter "" rest
      | '-' :: letter :: more =>
        match o.taking? letter with
        | none => o.misuse c usage ("invalid option -- '" ++ String.singleton letter ++ "'")
        | some .nothing =>
          found letter "" (if more.isEmpty then rest else String.ofList ('-' :: more) :: rest)
        | some .optional => found letter (String.ofList more) rest
        | some .required =>
          match more, rest with
          | [], [] =>
            o.misuse c usage ("option requires an argument -- '" ++ String.singleton letter ++ "'")
          | [], value :: rest => found letter value rest
          | more, rest => found letter (String.ofList more) rest
      | _ =>
        if o.mayFollow then
          let p ← parseWithin o c usage fuel rest
          return { p with operands := word :: p.operands }
        else return ⟨[], words⟩

def parseUnder (o : Options) (c : Call) (usage : String) : Task Parsed :=
  o.parseWithin c usage (" ".intercalate c.arguments).length.succ c.arguments

def parse (o : Options) (c : Call) : Task Parsed := o.parseUnder c ""

end Options

/-! Places on the disk. -/

/-- The last name of a path; a root stays. -/
def baseName (path : String) : String :=
  let trimmed := (path.toList.reverse.dropWhile (· = '/')).reverse
  if trimmed.isEmpty then (if path.isEmpty then "" else "/")
  else String.ofList (trimmed.reverse.takeWhile (· ≠ '/')).reverse

/-- The directory that a path lies in, as far as its text tells. -/
def directoryName (path : String) : String :=
  let trimmed := path.toList.reverse.dropWhile (· = '/')
  if trimmed.isEmpty then (if path.isEmpty then "." else "/")
  else if !trimmed.contains '/' then "."
  else
    let directory := (trimmed.dropWhile (· ≠ '/')).dropWhile (· = '/')
    if directory.isEmpty then "/" else String.ofList directory.reverse

/-- A name below a path. -/
def below (path name : String) : String :=
  if path.toList.getLast? = some '/' then path ++ name else path ++ "/" ++ name

namespace Task

def place (path : String) : Task (Except IoFault (List String)) := do
  if path = "/dev/null" then return .ok ["dev", "null"]
  return (← disk).place (Octets.decode path)

/-- What a path leads to. The place where everything is lost is an empty file. -/
def entry (path : String) : Task (Except IoFault Entry) := do
  if path = "/dev/null" then return .ok (.file [])
  return (← disk).lookup (Octets.decode path)

def isDirectory (path : String) : Task Bool := return (← disk).isDirectory (Octets.decode path)

def contains (path : String) : Task Bool := return (← disk).contains (Octets.decode path)

/-- The names in a directory. -/
def list (path : String) : Task (List String) :=
  return ((← disk).list (Octets.decode path)).toOption.getD [] |>.map Octets.encode

def isRunnable (place : List String) : Task Bool := return (← get).runnable.contains place

/-- The path of a place. -/
def pathOf (place : List String) : String := Octets.encode ("/" ++ "/".intercalate place)

/-- What may be run below a place, as seen from there. -/
def runnableBelow (place : List String) : Task (List (List String)) :=
  return (← get).runnable.filterMap fun p =>
    if place.isPrefixOf p then some (p.drop place.length) else none

/-- Takes the entry at a place away. -/
def remove (place : List String) : Task Unit :=
  modify fun w => { w with
    disk := w.disk.modify (Entry.remove place)
    runnable := w.runnable.filter (!place.isPrefixOf ·) }

/-- Puts an entry at a place. -/
def putEntry (place : List String) (e : Entry) (runnable : List (List String)) : Task Unit :=
  modify fun w => { w with
    disk := w.disk.modify (Entry.put e place)
    runnable := runnable.map (place ++ ·) ++ w.runnable.filter (!place.isPrefixOf ·) }

/-- Writes a file at a place; what may be done with it stays as it was. -/
def overwrite (place : List String) (e : Entry) : Task Unit :=
  modify fun w => { w with disk := w.disk.modify (Entry.put e place) }

end Task

end PluginHost.Utility
