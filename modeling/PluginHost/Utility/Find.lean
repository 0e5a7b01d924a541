import PluginHost.Shell.Pattern
import PluginHost.Utility.Task
/-!
The utility that goes through directories.
-/

namespace PluginHost.Utility

namespace Find

/-- What is asked of an entry, or done with it. -/
inductive Test where
  | always (b : Bool)
  | name (pattern : String) (ignoresCase : Bool)
  | path (pattern : String)
  | kind (isDirectory : Bool)
  | empty
  /-- How an entry has to compare with a number of units of so many bytes. -/
  | size (order : Ordering) (count unit : Nat)
  | runnable
  | print (ending : String)
  | printf (format : String)
  | delete
  /-- Runs a command for each entry. -/
  | exec (words : List String)
  /-- Runs a command for all entries at once. -/
  | execAll (words : List String)
  | prune
  | quit
  | not (t : Test)
  | both (a b : Test)
  | either (a b : Test)
deriving Inhabited

/-- What holds for the whole search. -/
structure Bounds where
  least : Nat
  most : Option Nat
  /-- Whether what is in a directory comes before it. -/
  isInsideFirst : Bool

/-- Words that are left, and what was found about the whole search. -/
abbrev Reader (α : Type) := StateT (List String × Bounds) (Except String) α

/-- Whether something is done with entries. -/
def Test.acts : Test → Bool
  | print _ | printf _ | delete | exec _ | execAll _ | quit => true
  | not t => t.acts
  | both a b | either a b => a.acts || b.acts
  | _ => false

def next? : Reader (Option String) := do
  match ← get with
  | (word :: rest, bounds) =>
    set (rest, bounds)
    return some word
  | ([], _) => return none

def argument (word : String) : Reader String := do
  match ← next? with
  | some text => return text
  | none => throw ("missing argument to `" ++ word ++ "'")

/-- The words of a command up to its end. -/
def commandWords : Nat → Reader (List String × Bool)
  | 0 => throw "missing argument to `-exec'"
  | fuel + 1 => do
    match ← next? with
    | none => throw "missing argument to `-exec'"
    | some ";" => return ([], false)
    | some word =>
      if word = "\x7b\x7d" && (← get).1.head? = some "+" then
        let _ ← next?
        return ([], true)
      let (words, isAll) ← commandWords fuel
      return (word :: words, isAll)

/-- The bytes that the letter of a unit stands for. -/
def unitOf : List Char → Nat
  | ['c'] => 1
  | ['k'] => 1024
  | ['M'] => 1024 * 1024
  | _ => 512

def depthOf (word : String) : Reader Nat := do
  let text ← argument word
  match Text.digits? text.toList with
  | some n => return n
  | none =>
    throw ("Expected a positive decimal integer argument to " ++ word ++ ", but got '" ++ text ++ "'")

mutual

/-- Alternatives. The fuel bounds the words; the same holds below. -/
def alternatives : Nat → Reader Test
  | 0 => return .always true
  | fuel + 1 => do
    let a ← sequence fuel
    match (← get).1.head? with
    | some "-o" | some "-or" =>
      let _ ← next?
      return .either a (← alternatives fuel)
    | _ => return a

def sequence : Nat → Reader Test
  | 0 => return .always true
  | fuel + 1 => do
    let a ← single fuel
    match (← get).1.head? with
    | none | some "-o" | some "-or" | some ")" => return a
    | some "-a" | some "-and" =>
      let _ ← next?
      return .both a (← sequence fuel)
    | some _ => return .both a (← sequence fuel)

def single : Nat → Reader Test
  | 0 => return .always true
  | fuel + 1 => do
    match ← next? with
    | none => throw "expected an expression"
    | some word =>
      let bound := fun (f : Bounds → Bounds) => show Reader Test from do
        modify fun (rest, bounds) => (rest, f bounds)
        return .always true
      match word with
      | "!" | "-not" => return .not (← single fuel)
      | "(" =>
        let t ← alternatives fuel
        match ← next? with
        | some ")" => return t
        | _ =>
          throw "invalid expression; I was expecting to find a ')' somewhere but did not see one."
      | "-true" => return .always true
      | "-false" => return .always false
      | "-name" => return .name (← argument word) false
      | "-iname" => return .name (← argument word) true
      | "-path" | "-wholename" => return .path (← argument word)
      | "-type" =>
        match ← argument word with
        | "f" => return .kind false
        | "d" => return .kind true
        | "l" | "p" | "s" | "b" | "c" => return .always false
        | other => throw ("Unknown argument to -type: " ++ other)
      | "-empty" => return .empty
      | "-size" =>
        let (order, s) := match (← argument word).toList with
          | '+' :: rest => (Ordering.gt, rest)
          | '-' :: rest => (Ordering.lt, rest)
          | s => (Ordering.eq, s)
        let digits := s.takeWhile Char.isDigit
        return .size order (Nat.ofDigitChars 10 digits 0) (unitOf (s.drop digits.length))
      | "-executable" => return .runnable
      | "-newer" | "-mtime" | "-mmin" | "-user" | "-group" | "-perm" =>
        let _ ← argument word
        return .always (word = "-user" || word = "-group" || word = "-perm")
      | "-print" => return .print "\n"
      | "-print0" => return .print "\x00"
      | "-printf" => return .printf (← argument word)
      | "-delete" =>
        let _ ← bound fun b => { b with isInsideFirst := true }
        return .delete
      | "-exec" | "-execdir" | "-ok" =>
        let (words, isAll) ← commandWords ((← get).1.length + 1)
        return if isAll then .execAll words else .exec words
      | "-prune" => return .prune
      | "-quit" => return .quit
      | "-maxdepth" =>
        let n ← depthOf word
        bound fun b => { b with most := some n }
      | "-mindepth" =>
        let n ← depthOf word
        bound fun b => { b with least := n }
      | "-depth" => bound fun b => { b with isInsideFirst := true }
      | "-xdev" | "-mount" | "-follow" | "-noleaf" => return .always true
      | word =>
        if word.toList.head? = some '-' then throw ("unknown predicate `" ++ word ++ "'")
        else throw ("paths must precede expression: `" ++ word ++ "'")

end

/-- An entry that was come upon. -/
structure Found where
  path : String
  /-- The path that the search began with. -/
  start : String
  depth : Nat
  entry : Entry

/-- How a search goes on: whether it goes into a directory, whether it is over, and the paths for
    commands that deal with all of them. -/
structure Going where
  isPruned : Bool
  isOver : Bool
  kept : List (List String × List String)

abbrev Search (α : Type) := StateT Going Task α

def isMatch (pattern : String) (ignoresCase : Bool) (s : String) : Bool :=
  let fold := fun (s : String) => if ignoresCase then s.toLower else s
  Shell.Glob.isMatch (Shell.Glob.ofMarked ((fold pattern).toList.map (·, false))) (fold s).toList

/-- A path below which the search does not go further without a slash at its end. -/
def nameOf (path : String) : String := baseName path

/-- Writes what a format tells of an entry. -/
def formatOf (f : Found) : List Char → List Char
  | '%' :: 'p' :: rest => f.path.toList ++ formatOf f rest
  | '%' :: 'f' :: rest => (nameOf f.path).toList ++ formatOf f rest
  | '%' :: 'h' :: rest => (directoryName f.path).toList ++ formatOf f rest
  | '%' :: 'P' :: rest =>
    ((f.path.toList.drop f.start.length).dropWhile (· = '/')) ++ formatOf f rest
  | '%' :: 'd' :: rest => (toString f.depth).toList ++ formatOf f rest
  | '%' :: 's' :: rest =>
    (match f.entry with
      | .file bytes => toString bytes.length
      | .directory _ => "4096").toList ++ formatOf f rest
  | '%' :: 'y' :: rest =>
    (match f.entry with
      | .file _ => 'f'
      | .directory _ => 'd') :: formatOf f rest
  | '%' :: '%' :: rest => '%' :: formatOf f rest
  | '\\' :: 'n' :: rest => '\n' :: formatOf f rest
  | '\\' :: 't' :: rest => '\t' :: formatOf f rest
  | '\\' :: '0' :: rest => Char.ofNat 0 :: formatOf f rest
  | '\\' :: '\\' :: rest => '\\' :: formatOf f rest
  | c :: rest => c :: formatOf f rest
  | [] => []

/-- Runs a command with some words. -/
def runWords (words : List String) : Task Bool := do
  let (status, _) ← Task.runCommand "find" (" ".intercalate (words.map quoted)) [] false
  return status = 0

def Test.holds (c : Call) (f : Found) : Test → Search Bool
  | always b => return b
  | name pattern ignoresCase => return isMatch pattern ignoresCase (nameOf f.path)
  | path pattern => return isMatch pattern false f.path
  | kind isDirectory => return (f.entry matches .directory _) == isDirectory
  | empty => return match f.entry with
    | .file bytes => bytes.isEmpty
    | .directory entries => entries.isEmpty
  | size order count unit => do
    let bytes := match f.entry with
      | .file bytes => bytes.length
      | .directory _ => 4096
    return compare ((bytes + unit - 1) / unit) count == order
  | runnable => do
    match ← Task.place f.path with
    | .ok place => return (f.entry matches .directory _) || (← Task.isRunnable place)
    | .error _ => return false
  | print ending => do
    Task.putText (f.path ++ ending)
    return true
  | printf format => do
    Task.put (formatOf f format.toList)
    return true
  | delete => do
    if f.path = "." then return true
    match ← Task.place f.path, ← Task.entry f.path with
    | .ok _, .ok (.directory (_ :: _)) =>
      c.complain ("cannot delete '" ++ f.path ++ "': Directory not empty")
      return false
    | .ok place, .ok _ =>
      Task.remove place
      return true
    | _, _ => return false
  | exec words => runWords (words.map fun w => f.path.intercalate (w.splitOn "\x7b\x7d"))
  | execAll words => do
    modify fun g => { g with
      kept := if (g.kept.lookup words).isSome then
          g.kept.map fun k => if k.1 = words then (k.1, f.path :: k.2) else k
        else g.kept ++ [(words, [f.path])] }
    return true
  | prune => do
    modify fun g => { g with isPruned := true }
    return true
  | quit => do
    modify fun g => { g with isOver := true }
    return true
  | not t => return !(← t.holds c f)
  | both a b => do
    if ← a.holds c f then
      if (← get).isOver then return true else b.holds c f
    else return false
  | either a b => do
    if ← a.holds c f then return true else b.holds c f

/-- Goes through an entry and all below it. -/
def walk (c : Call) (t : Test) (bounds : Bounds) (start path : String) (depth : Nat) :
    Entry → Search Unit
  | .file bytes => visit (.file bytes)
  | .directory entries => do
    if (← get).isOver then return
    if !bounds.isInsideFirst then visit (.directory entries)
    let isPruned := (← get).isPruned
    modify fun g => { g with isPruned := false }
    if !isPruned && bounds.most.all (depth < ·) then go entries
    if bounds.isInsideFirst then visit (.directory [])
where
  visit (e : Entry) : Search Unit := do
    if bounds.least ≤ depth && !(← get).isOver then
      let _ ← t.holds c ⟨path, start, depth, e⟩
  go : List (String × Entry) → Search Unit
    | [] => return
    | (name, e) :: rest => do
      walk c t bounds start (below path (Octets.encode name)) (depth + 1) e
      modify fun g => { g with isPruned := false }
      go rest

end Find

open Find in
def find : Program := fun c => do
  let isPath := fun (word : String) => word.toList.head? ≠ some '-' && word ∉ ["!", "("]
  let words := c.arguments.dropWhile fun word => word ∈ ["-L", "-H", "-P"]
  let paths := words.takeWhile isPath
  let words := words.dropWhile isPath
  let read := if words.isEmpty then pure (Test.always true) else alternatives (4 * words.length + 4)
  match read.run (words, ⟨0, none, false⟩) with
  | .error message => c.fail message 1
  | .ok (_, word :: _, _) => c.fail ("paths must precede expression: `" ++ word ++ "'") 1
  | .ok (t, [], bounds) =>
    let t := if t.acts then t else .both t (.print "\n")
    let search : Search Unit := (if paths.isEmpty then ["."] else paths).forM fun path => do
      match ← Task.entry path with
      | .ok e => walk c t bounds path path 0 e
      | .error fault => c.complain ("'" ++ path ++ "': " ++ fault.reason)
    let ((), going) ← search.run ⟨false, false, []⟩
    going.kept.forM fun (words, paths) => do
      if !(← runWords (words ++ paths.reverse)) then Task.setStatus 1

end PluginHost.Utility
