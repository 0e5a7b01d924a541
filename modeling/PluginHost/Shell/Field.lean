import PluginHost.Shell.Pattern
import PluginHost.Text.Utf8
import PluginHost.Disk.Disk
/-!
Fields: what words are cut into, and the paths that fields with patterns stand for.
-/

namespace PluginHost.Shell

/-- A piece of what a word stands for. -/
inductive Piece where
  | text (chars : List Char) (isQuoted : Bool)
  /-- The value of something outside quotes, which is cut at separators. -/
  | value (chars : List Char)
  /-- Quotes, which make a field even if it is empty. -/
  | quotes
  /-- An end of a field. Unless it is a firm one, a field without anything in it does not count. -/
  | boundary (isFirm : Bool)
deriving DecidableEq, Inhabited

/-- Characters with a mark on those that stand for themselves. -/
abbrev Marked := List (Char × Bool)

namespace Piece

def marked : Piece → Marked
  | text chars isQuoted => chars.map fun c => (c, isQuoted)
  | value chars => chars.map fun c => (c, false)
  | quotes => []
  | boundary _ => [(' ', true)]

def allMarked (ps : List Piece) : Marked := ps.flatMap marked

/-- The characters of pieces that are not cut into fields. -/
def plain (ps : List Piece) : List Char := (allMarked ps).map (·.1)

def plainText (ps : List Piece) : String := String.ofList (plain ps)

/-- The piece that characters make. -/
def ofValue (inQuotes : Bool) (chars : List Char) : Piece :=
  if inQuotes then text chars true else value chars

end Piece

/-- What separates fields: the separators, of which the blank ones join. -/
structure Separators where
  chars : List Char

namespace Separators

/-- The separators where none are chosen. -/
def standard : Separators := ⟨[' ', '\t', '\n']⟩

def isBlankChar (c : Char) : Bool := c = ' ' || c = '\t' || c = '\n'

def contains (s : Separators) (c : Char) : Bool := s.chars.contains c

def isBlank (s : Separators) (c : Char) : Bool := s.contains c && isBlankChar c

end Separators

/-- Fields that are complete, and the one that is not; the newest comes first in each. -/
structure Fields where
  done : List Marked
  current : Marked
  /-- Whether there is something in the current field, if only quotes. -/
  isBegun : Bool

namespace Fields

def empty : Fields := ⟨[], [], false⟩

def add (fs : Fields) (c : Char × Bool) : Fields :=
  { fs with current := c :: fs.current, isBegun := true }

/-- Ends the current field. -/
def close (fs : Fields) : Fields := ⟨fs.current.reverse :: fs.done, [], false⟩

/-- Ends the current field if there is one. -/
def closeBegun (fs : Fields) : Fields := if fs.isBegun then fs.close else fs

/-- What may be left out behind a separator: blanks, and one more separator behind a blank. -/
inductive Skipping where
  | nothing
  | blanks
  | blanksAndOne
deriving DecidableEq

/-- Adds a value, cut at separators. -/
def addValue (s : Separators) : Fields → Skipping → List Char → Fields
  | fs, _, [] => fs
  | fs, skipping, c :: rest =>
    if skipping ≠ .nothing && s.isBlank c then addValue s fs skipping rest
    else if skipping = .blanksAndOne && s.contains c then addValue s fs .blanks rest
    else if s.isBlank c then
      if fs.isBegun then addValue s fs.close .blanksAndOne rest else addValue s fs .nothing rest
    else if s.contains c then addValue s fs.close .blanks rest
    else addValue s (fs.add (c, false)) .nothing rest

def addPiece (s : Separators) (fs : Fields) : Piece → Fields
  | .text chars isQuoted => chars.foldl (fun fs c => fs.add (c, isQuoted)) fs
  | .value chars => addValue s fs .nothing chars
  | .quotes => { fs with isBegun := true }
  | .boundary true => fs.close
  | .boundary false => fs.closeBegun

/-- The fields of pieces. -/
def ofPieces (s : Separators) (ps : List Piece) : List Marked :=
  (ps.foldl (addPiece s) empty).closeBegun.done.reverse

end Fields

namespace Pathname

/-- Whether a field may stand for paths. -/
def isPattern (field : Marked) : Bool :=
  field.any fun c => !c.2 && (c.1 = '*' || c.1 = '?' || c.1 = '[')

/-- The names in a directory, as octets, with those of the directory itself and the one it is in. -/
def names (disk : Disk) (directory : String) : List String :=
  let path := if directory.isEmpty then "." else directory
  match disk.list (Octets.decode path) with
  | .ok names => "." :: ".." :: names.map Octets.encode
  | .error _ => []

/-- The paths that a start and the segments behind it stand for. The last segment says which paths
    there are. -/
def ofSegments (disk : Disk) : String → List Marked → List String
  | start, [] => [start]
  | start, segment :: rest =>
    let slash := if rest.isEmpty then "" else "/"
    if isPattern segment then
      let pattern := Glob.ofMarked segment
      let takesHidden := segment.head?.any (·.1 = '.')
      let found := (names disk start).filter fun name =>
        (takesHidden || name.toList.head? ≠ some '.') && Glob.isMatch pattern name.toList
      found.flatMap fun name => ofSegments disk (start ++ name ++ slash) rest
    else
      let path := start ++ String.ofList (segment.map (·.1))
      if rest.isEmpty then
        if path.isEmpty || disk.contains (Octets.decode path) then [path] else []
      else ofSegments disk (path ++ slash) rest

/-- What a field stands for: the paths that match it in the order of their bytes, or itself. -/
def ofField (disk : Disk) (field : Marked) : List String :=
  let itself := String.ofList (field.map (·.1))
  if isPattern field then
    let segments := field.splitOnP (·.1 = '/')
    match (ofSegments disk "" segments).mergeSort (fun a b => a ≤ b) with
    | [] => [itself]
    | paths => paths
  else [itself]

end Pathname

end PluginHost.Shell
