import PluginHost.Utility.Task
/-!
Utilities that tell about paths: what is in directories, how paths are made up, and where they lead to.
-/

namespace PluginHost.Utility

def basename : Program := fun c => do
  let options : Options := ⟨"as:z", [("multiple", 'a'), ("suffix", 's'), ("zero", 'z')], false, 1⟩
  let p ← options.parse c
  let lineEnd := if p.has 'z' then [Char.ofNat 0] else ['\n']
  let cut := fun (ending path : String) =>
    let name := (baseName path).toList
    let ending := ending.toList
    if !ending.isEmpty && ending.isSuffixOf name && ending ≠ name then
      name.take (name.length - ending.length)
    else name
  if p.has 'a' || p.has 's' then
    if p.operands.isEmpty then c.noOperand
    p.operands.forM fun path => Task.put (cut ((p.text? 's').getD "") path ++ lineEnd)
  else
    match p.operands with
    | [] => c.noOperand
    | [path] => Task.put (cut "" path ++ lineEnd)
    | [path, ending] => Task.put (cut ending path ++ lineEnd)
    | _ :: _ :: extra :: _ => c.misuse ("extra operand " ++ quoted extra) 1

def dirname : Program := fun c => do
  let options : Options := ⟨"z", [("zero", 'z')], false, 1⟩
  let p ← options.parse c
  if p.operands.isEmpty then c.noOperand
  p.operands.forM fun path =>
    Task.put ((directoryName path).toList ++ if p.has 'z' then [Char.ofNat 0] else ['\n'])

def pwd : Program := fun _ => do
  Task.putText (Task.pathOf (← Task.disk).working ++ "\n")

/-- Writes where paths lead to. -/
def writePlaces (c : Call) (p : Parsed) (isQuiet : Bool) (needed : Bool) : Task Unit := do
  p.operands.forM fun path => do
    let lineEnd := if p.has 'n' && p.operands.length = 1 then "" else if p.has 'z' then "\x00" else "\n"
    let refuse := fun (fault : IoFault) =>
      if isQuiet then Task.setStatus 1 else c.complain (shown path ++ ": " ++ fault.reason)
    match ← Task.place path, ← Task.entry path with
    | .ok place, .ok _ => Task.putText (Task.pathOf place ++ lineEnd)
    | .ok place, .error fault =>
      if needed then refuse fault else Task.putText (Task.pathOf place ++ lineEnd)
    | .error fault, _ => refuse fault

def realpath : Program := fun c => do
  let options : Options := ⟨"emqsLPz", [("canonicalize-existing", 'e'), ("canonicalize-missing", 'm'),
    ("quiet", 'q'), ("no-symlinks", 's'), ("zero", 'z')], true, 1⟩
  let p ← options.parse c
  if p.operands.isEmpty then c.noOperand
  writePlaces c p (p.has 'q') (p.has 'e')

/-- Nothing on the disk is a link; so only paths as a whole can be told. -/
def readlink : Program := fun c => do
  let options : Options := ⟨"efmnqsvz", [("canonicalize", 'f'), ("canonicalize-existing", 'e'),
    ("canonicalize-missing", 'm'), ("no-newline", 'n')], true, 1⟩
  let p ← options.parse c
  if p.operands.isEmpty then c.noOperand
  if p.has 'f' || p.has 'e' || p.has 'm' then writePlaces c p (!p.has 'v') (p.has 'e')
  else Task.setStatus 1

/-- An entry as it is listed: its name, and what is there. -/
structure Listed where
  name : String
  entry : Entry
  isRunnable : Bool
deriving Inhabited

namespace Listed

def isDirectory (l : Listed) : Bool := l.entry matches .directory _

/-- How many bytes an entry has. -/
def size (l : Listed) : Nat :=
  match l.entry with
  | .file bytes => bytes.length
  | .directory _ => 4096

/-- What may be done with an entry, in letters. -/
def mode (l : Listed) : String :=
  if l.isDirectory then "drwxr-xr-x" else if l.isRunnable then "-rwxr-xr-x" else "-rw-r--r--"

/-- The name with a mark for what kind of entry it has. -/
def marked (p : Parsed) (l : Listed) : String :=
  let name := if p.has 'Q' then "\"" ++ l.name ++ "\"" else l.name
  name ++ if l.isDirectory && (p.has 'F' || p.has 'p') then "/"
    else if l.isRunnable && !l.isDirectory && p.has 'F' then "*"
    else ""

/-- Entries in the order in which they are listed. -/
def sort (p : Parsed) (ls : List Listed) : List Listed :=
  let ls := ls.mergeSort fun a b => a.name ≤ b.name
  let ls := if p.has 'S' then ls.mergeSort fun a b => b.size ≤ a.size else ls
  if p.has 'r' then ls.reverse else ls

/-- Writes entries, each on a line. -/
def write (p : Parsed) (isInside : Bool) (ls : List Listed) : Task Unit := do
  let ls := sort p ls
  if p.has 'l' || p.has 'n' || p.has 'o' || p.has 'g' then
    let blocks := fun (l : Listed) => (l.size + 4095) / 4096 * 4
    if isInside then
      Task.putText ("total " ++ toString (ls.foldl (fun n l => n + blocks l) 0) ++ "\n")
    let width := ls.foldl (fun n l => max n (toString l.size).length) 0
    let owner := if p.has 'n' then "0" else "root"
    ls.forM fun l =>
      let size := String.ofList (List.replicate (width - (toString l.size).length) ' ')
      Task.putText (l.mode ++ (if l.isDirectory then " 2 " else " 1 ") ++
        (if p.has 'g' then "" else owner ++ " ") ++ (if p.has 'o' then "" else owner ++ " ") ++
        size ++ toString l.size ++ " Jan  1 00:00 " ++ l.marked p ++ "\n")
  else if p.last? ['m', '1'] = some 'm' then
    if !ls.isEmpty then Task.putText (", ".intercalate (ls.map (marked p)) ++ "\n")
  else Task.putLines (ls.map fun l => (l.marked p).toList)

end Listed

/-- What is listed of a directory. -/
def listedIn (p : Parsed) (path : String) : Task (List Listed) := do
  let place := (← Task.place path).toOption.getD []
  match ← Task.entry path with
  | .ok (.directory entries) =>
    let entries ← entries.mapM fun (name, entry) => do
      return { name := Octets.encode name, entry, isRunnable := ← Task.isRunnable (place ++ [name]) }
    let visible := entries.filter fun l =>
      p.has 'a' || p.has 'A' || l.name.toList.head? ≠ some '.'
    let dots : List Listed := [⟨".", .directory [], false⟩, ⟨"..", .directory [], false⟩]
    return (if p.last? ['a', 'A'] = some 'a' then dots else []) ++ visible
  | _ => return []

/-- Lists directories, and those in them if that is wanted. The fuel bounds how deep they lie. -/
def listDirectories (p : Parsed) (hasHeads : Bool) : Nat → Bool → List String → Task Bool
  | 0, isFirst, _ => return isFirst
  | _, isFirst, [] => return isFirst
  | fuel + 1, isFirst, path :: rest => do
    if hasHeads then Task.putText ((if isFirst then "" else "\n") ++ path ++ ":\n")
    let ls ← listedIn p path
    Listed.write p true ls
    let inner := if p.has 'R' then
        (Listed.sort p (ls.filter fun l => l.isDirectory && l.name ≠ "." && l.name ≠ "..")).map
          fun l => below path l.name
      else []
    listDirectories p hasHeads fuel false (inner ++ rest)

/-- How many directories there are at most. -/
def entryCount : Entry → Nat
  | .file _ => 1
  | .directory entries => go entries + 1
where
  go : List (String × Entry) → Nat
    | [] => 0
    | (_, e) :: rest => entryCount e + go rest

def ls : Program := fun c => do
  let options : Options := ⟨"aAbBcCdDfFgGhHiI:klLmnNopqQrRsStT:uUvw:xXZ1", [("all", 'a'),
    ("almost-all", 'A'), ("directory", 'd'), ("reverse", 'r'), ("recursive", 'R'), ("classify", 'F'),
    ("quote-name", 'Q'), ("color", 'G')], true, 2⟩
  let p ← options.parse c
  let paths := if p.operands.isEmpty then ["."] else p.operands
  let found ← paths.filterMapM fun path => do
    match ← Task.entry path, ← Task.place path with
    | .ok entry, .ok place => return some (Listed.mk path entry (← Task.isRunnable place))
    | .error fault, _ | _, .error fault =>
      c.say ("cannot access " ++ quoted path ++ ": " ++ fault.reason)
      Task.setStatus 2
      return none
  let (directories, files) := found.partition fun l => l.isDirectory && !p.has 'd'
  Listed.write p false files
  let hasHeads := 1 < paths.length || p.has 'R'
  let names := (Listed.sort p directories).map (·.name)
  let size := (entryCount (.directory (← Task.disk).root) + 1) * (names.length + 1)
  let _ ← listDirectories p hasHeads size files.isEmpty names

/-- Tells about files in a form that is given. -/
def stat : Program := fun c => do
  let options : Options := ⟨"c:Lft", [("format", 'c'), ("printf", 'p')], true, 1⟩
  let p ← options.parse c
  if p.operands.isEmpty then c.noOperand
  p.operands.forM fun path => do
    match ← Task.entry path, ← Task.place path with
    | .ok entry, .ok place =>
      let l : Listed := ⟨path, entry, ← Task.isRunnable place⟩
      let kind := match entry with
        | .directory _ => "directory"
        | .file [] => "regular empty file"
        | .file _ => "regular file"
      Task.put (go l kind ((p.text? 'c').getD "%n").toList ++ ['\n'])
    | .error fault, _ | _, .error fault =>
      c.complain ("cannot statx " ++ quoted path ++ ": " ++ fault.reason)
where
  go (l : Listed) (kind : String) : List Char → List Char
    | '%' :: 's' :: rest => (toString l.size).toList ++ go l kind rest
    | '%' :: 'n' :: rest => l.name.toList ++ go l kind rest
    | '%' :: 'N' :: rest => (quoted l.name).toList ++ go l kind rest
    | '%' :: 'F' :: rest => kind.toList ++ go l kind rest
    | '%' :: 'A' :: rest => l.mode.toList ++ go l kind rest
    | '%' :: 'a' :: rest =>
      (if l.isDirectory || l.isRunnable then "755" else "644").toList ++ go l kind rest
    | '%' :: 'U' :: rest | '%' :: 'G' :: rest => "root".toList ++ go l kind rest
    | '%' :: 'u' :: rest | '%' :: 'g' :: rest => '0' :: go l kind rest
    | '%' :: '%' :: rest => '%' :: go l kind rest
    | ch :: rest => ch :: go l kind rest
    | [] => []

/-- Compares two files up to the first difference. -/
def cmp : Program := fun c => do
  let options : Options := ⟨"bi:ln:s", [("silent", 's'), ("quiet", 's'), ("verbose", 'l'),
    ("bytes", 'n')], true, 2⟩
  let p ← options.parse c
  let read := fun (path : String) => show Task (List Char) from do
    match ← Task.readFile path with
    | .ok s => return match (p.text? 'n').bind fun n => Text.digits? n.toList with
      | some n => s.take n
      | none => s
    | .error fault =>
      if p.has 's' then Task.exit 2 else c.fail (path ++ ": " ++ fault.reason) 2
  match p.operands with
  | [] => c.misuse "missing operand after 'cmp'" 2
  | a :: rest =>
    let b := rest.head?.getD "-"
    let s ← read a
    let t ← read b
    let same := ((s.zip t).takeWhile fun (x, y) => x = y).length
    let line := ((s.take same).filter (· = '\n')).length
    let number := fun (n : Nat) => String.ofList (Text.ofNat n)
    if same = s.length && same = t.length then return
    Task.setStatus 1
    if p.has 's' then return
    if same = s.length || same = t.length then
      let name := if same = s.length then a else b
      if same = 0 then c.say ("EOF on " ++ name ++ " which is empty")
      else
        let isWhole := ((s.take same).getLast?) = some '\n'
        c.say ("EOF on " ++ name ++ " after byte " ++ number same ++
          (if isWhole then ", line " ++ number line else ", in line " ++ number (line + 1)))
    else
      Task.putText (a ++ " " ++ b ++ " differ: char " ++ number (same + 1) ++ ", line " ++
        number (line + 1) ++ "\n")

end PluginHost.Utility
