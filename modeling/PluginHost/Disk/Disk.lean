import PluginHost.Assoc
import PluginHost.Disk.IoFault
import PluginHost.Path
import PluginHost.Text.Utf8
/-!
Disks: trees of directories and files, and the operations on them by path.
-/

namespace PluginHost

/-- A file, or a directory with entries in ascending order of their names. -/
inductive Entry where
  | file (bytes : List UInt8)
  | directory (entries : List (String × Entry))
deriving Inhabited

/-- All directories and files, and where relative paths start. -/
structure Disk where
  root : List (String × Entry)
  /-- The names of the directories that lead to the working directory. -/
  working : List String
  /-- How many temporary directories were made. -/
  temporaries : Nat
deriving Inhabited

namespace Entry

/-- The entry that names lead to. -/
def find? : List String → Entry → Option Entry
  | [], e => some e
  | name :: rest, directory entries => (Assoc.get? entries name).bind (find? rest)
  | _ :: _, file _ => none

/-- Puts an entry where names lead to, in a directory that is there. -/
def put (new : Entry) : List String → Entry → Entry
  | [], _ => new
  | [name], directory entries => directory (Assoc.insert name new entries)
  | name :: rest, directory entries =>
    match Assoc.get? entries name with
    | some child => directory (Assoc.insert name (put new rest child) entries)
    | none => directory entries
  | _ :: _, file bytes => file bytes

/-- Takes away the entry that names lead to. -/
def remove : List String → Entry → Entry
  | [name], directory entries => directory (entries.filter fun e => e.1 ≠ name)
  | name :: rest, directory entries =>
    match Assoc.get? entries name with
    | some child => directory (Assoc.insert name (remove rest child) entries)
    | none => directory entries
  | _, e => e

end Entry

namespace Disk

/-- The longest name in a directory, in bytes. -/
def maxNameBytes : Nat := 255

/-- The longest path, in bytes. -/
def maxPathBytes : Nat := 4095

def entryAt? (d : Disk) (place : List String) : Option Entry := Entry.find? place (.directory d.root)

/-- The disk with an entry changed. -/
def modify (d : Disk) (f : Entry → Entry) : Disk :=
  match f (.directory d.root) with
  | .directory entries => { d with root := entries }
  | .file _ => d

/-- One step of a path from a place. Only a directory can be left or entered; the last name may be
    missing. -/
def step (d : Disk) (place : List String) (segment : List Char) : Except IoFault (List String) :=
  match d.entryAt? place with
  | none => .error .notFound
  | some (.file _) => .error .notADirectory
  | some (.directory _) =>
    match segment with
    | [] | ['.'] => .ok place
    | ['.', '.'] => .ok place.dropLast
    | name =>
      if (Text.utf8 name).length > maxNameBytes then .error .nameTooLong
      else .ok (place ++ [String.ofList name])

/-- The place that a path leads to. Everything but the last name has to be there. Slashes at the end
    are of no account here. -/
def place (d : Disk) (path : String) : Except IoFault (List String) :=
  if path.toList.contains '\x00' then .error .nulInPath
  else if path.isEmpty then .error .notFound
  else if (Text.utf8 path.toList).length > maxPathBytes then .error .nameTooLong
  else
    let start := if Path.isAbsolute path then [] else d.working
    let segments := (Path.segments path).reverse.dropWhile List.isEmpty |>.reverse
    segments.foldlM d.step start

/-- Whether a path says that it leads to a directory. -/
def namesDirectory (path : String) : Bool := path.toList.getLast? = some '/'

/-- What a path leads to. -/
def lookup (d : Disk) (path : String) : Except IoFault Entry := do
  match d.entryAt? (← d.place path) with
  | some (.file bytes) => if namesDirectory path then throw .notADirectory else return .file bytes
  | some e => return e
  | none => throw .notFound

def contains (d : Disk) (path : String) : Bool :=
  match d.lookup path with
  | .ok _ => true
  | .error _ => false

def isFile (d : Disk) (path : String) : Bool :=
  match d.lookup path with
  | .ok (.file _) => true
  | _ => false

def isDirectory (d : Disk) (path : String) : Bool :=
  match d.lookup path with
  | .ok (.directory _) => true
  | _ => false

def read (d : Disk) (path : String) : Except IoFault (List UInt8) := do
  match ← d.lookup path with
  | .file bytes => return bytes
  | .directory _ => throw .isADirectory

def readText (d : Disk) (path : String) : Except IoFault String := do
  match Text.ofUtf8? (← d.read path) with
  | some text => return String.ofList text
  | none => throw .notUtf8

/-- The names in a directory, in ascending order. -/
def list (d : Disk) (path : String) : Except IoFault (List String) := do
  match ← d.lookup path with
  | .directory entries => return entries.map (·.1)
  | .file _ => throw .notADirectory

/-- Writes a file anew, in a directory that is there. -/
def write (d : Disk) (path : String) (bytes : List UInt8) : Except IoFault Disk := do
  let place ← d.place path
  match d.entryAt? place with
  | some (.directory _) => throw .isADirectory
  | some (.file _) =>
    if namesDirectory path then throw .notADirectory
    else return d.modify (Entry.put (.file bytes) place)
  | none =>
    if namesDirectory path then throw .isADirectory
    else return d.modify (Entry.put (.file bytes) place)

def makeDirectory (d : Disk) (path : String) : Except IoFault Disk := do
  let place ← d.place path
  match d.entryAt? place with
  | some _ => throw .alreadyExists
  | none => return d.modify (Entry.put (.directory []) place)

/-- Makes a directory and those it lies in. The fuel bounds their number. The disk is also given
    when it fails half way. -/
def makeDirectoriesWithin : Nat → Disk → String → Disk × Except IoFault Unit
  | 0, d, _ => (d, .error .notFound)
  | fuel + 1, d, path =>
    if path.isEmpty then (d, .ok ())
    else
      match d.makeDirectory path with
      | .ok d => (d, .ok ())
      | .error .notFound =>
        match Path.parent? path with
        | none => (d, .error (.other "failed to create whole tree"))
        | some parent =>
          match makeDirectoriesWithin fuel d parent with
          | (d, .error fault) => (d, .error fault)
          | (d, .ok ()) =>
            match d.makeDirectory path with
            | .ok d => (d, .ok ())
            | .error fault => (d, if d.isDirectory path then .ok () else .error fault)
      | .error fault => (d, if d.isDirectory path then .ok () else .error fault)

def makeDirectories (d : Disk) (path : String) : Disk × Except IoFault Unit :=
  makeDirectoriesWithin ((Path.segments path).length + 1) d path

def removeFile (d : Disk) (path : String) : Except IoFault Disk := do
  let place ← d.place path
  match d.entryAt? place with
  | some (.file _) =>
    if namesDirectory path then throw .notADirectory
    else return d.modify (Entry.remove place)
  | some (.directory _) => throw .isADirectory
  | none => throw .notFound

/-- Takes away a directory with all that is in it; nothing happens if there is none. -/
def removeTree (d : Disk) (path : String) : Disk :=
  match d.place path with
  | .ok place => d.modify (Entry.remove place)
  | .error _ => d

/-- The directory in which temporary directories are made. -/
def temporaryRoot : String := "/tmp"

/-- Makes a new temporary directory whose name starts in a given way, and gives its path. -/
def makeTemporary (d : Disk) (start : String) : Except IoFault (Disk × String) := do
  let path := Path.join temporaryRoot (start ++ String.ofList (Text.ofNat d.temporaries))
  let d ← d.makeDirectory path
  return ({ d with temporaries := d.temporaries + 1 }, path)

end Disk

end PluginHost
