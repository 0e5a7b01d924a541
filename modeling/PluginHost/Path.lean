import PluginHost.Text.Cut
/-!
Paths: names with slashes between them.

A path is kept as it was written. Its components leave out repeated slashes, slashes at the end and
every `.` but one at the start; two paths lead to the same place if their components agree. Names are
texts: files whose names are bytes that no text has are outside of what is described.
-/

namespace PluginHost.Path

inductive Component where
  | root
  /-- A `.` at the start. -/
  | current
  | parent
  | normal (name : String)
deriving DecidableEq, Inhabited

/-- The texts between the slashes. -/
def segments (path : String) : List (List Char) := path.toList.splitOnP (· = '/')

def ofSegments (segments : List (List Char)) : String :=
  String.ofList (List.intercalate ['/'] segments)

/-- The component that a segment makes, if it makes one. `rest` are the segments after it. -/
def component? (isFirst : Bool) (segment : List Char) (rest : List (List Char)) :
    Option Component :=
  match segment with
  | [] => if isFirst && !rest.isEmpty then some .root else none
  | ['.'] => if isFirst then some .current else none
  | ['.', '.'] => some .parent
  | name => some (.normal (String.ofList name))

/-- The components that segments make, each with the segments after it. -/
def scan (isFirst : Bool) : List (List Char) → List (Component × List (List Char))
  | [] => []
  | segment :: rest =>
    match component? isFirst segment rest with
    | some c => (c, rest) :: scan false rest
    | none => scan false rest

def components (path : String) : List Component := (scan true (segments path)).map (·.1)

def isAbsolute (path : String) : Bool := path.toList.head? = some '/'

/-- Whether a segment that is not the first makes no component. -/
def isIdle (segment : List Char) : Bool := segment = [] || segment = ['.']

def dropIdleEnd (segments : List (List Char)) : List (List Char) :=
  (segments.reverse.dropWhile isIdle).reverse

/-- Segments without those at the end that make no component. The first one stays. -/
def trimEnd : List (List Char) → List (List Char)
  | [] => []
  | first :: rest => first :: dropIdleEnd rest

/-- The path with given segments, which are the root alone if there is one empty segment. -/
def ofTrimmed (isAbsolute : Bool) (segments : List (List Char)) : String :=
  if isAbsolute && segments = [[]] then "/" else ofSegments segments

/-- The last component, if it is a name. -/
def fileName? (path : String) : Option String :=
  match (components path).getLast? with
  | some (.normal name) => some name
  | _ => none

/-- A file name cut at its last dot. A dot at the start of the name does not count. -/
def cutName (name : String) : String × Option String :=
  match Text.cutLast? '.' name.toList with
  | some (stem, extension) =>
    if stem.isEmpty then (name, none) else (String.ofList stem, some (String.ofList extension))
  | none => (name, none)

/-- The file name without its extension. -/
def stem? (path : String) : Option String := (fileName? path).map fun name => (cutName name).1

def extension? (path : String) : Option String := (fileName? path).bind fun name => (cutName name).2

/-- A path below another. An absolute path stands on its own. -/
def join (base path : String) : String :=
  if isAbsolute path || base.isEmpty then path
  else if base.toList.getLast? = some '/' then base ++ path
  else base ++ "/" ++ path

/-- The path without its last component, unless that is the root. -/
def parent? (path : String) : Option String :=
  match (components path).getLast? with
  | none | some .root => none
  | some .current => some ""
  | some _ =>
    match trimEnd (segments path) with
    | [] | [_] => some ""
    | segments => some (ofTrimmed (isAbsolute path) (trimEnd segments.dropLast))

/-- The path with its extension replaced, or with one added. A path without a file name stays. -/
def withExtension (path extension : String) : String :=
  match stem? path with
  | none => path
  | some stem =>
    ofSegments ((trimEnd (segments path)).dropLast ++ [(stem ++ "." ++ extension).toList])

/-- What is left of a path below a base: none if the first components are not those of the base. -/
def stripBase? (base path : String) : Option String :=
  let parts := scan true (segments path)
  let baseComponents := components base
  if baseComponents.isPrefixOf (parts.map (·.1)) then
    match (parts.take baseComponents.length).getLast? with
    | none => some (ofTrimmed (isAbsolute path) (trimEnd (segments path)))
    | some (_, rest) => some (ofSegments (dropIdleEnd (rest.dropWhile isIdle)))
  else none

end PluginHost.Path
