import PluginHost.Shell.Arithmetic
import PluginHost.Shell.Interpreter
/-!
What words stand for, and redirections: what descriptors lead to while a command runs.
-/

namespace PluginHost.Shell

/-- The home directory of the only user that can be named. -/
def homeOf? (user : List Char) (home : Option String) : Option (List Char) :=
  match String.ofList user with
  | "" => home.map String.toList
  | "root" => some "/root".toList
  | _ => none

namespace Word

/-- A text that stands at a place where a tilde counts. What follows it in the word is known to be
    more text, or the end. -/
def tildeText (home : Option String) (isAssigned isEnd : Bool) (chars : List Char) : Word :=
  match chars with
  | '~' :: rest =>
    let user := rest.takeWhile fun c => c ≠ '/' && !(isAssigned && c = ':')
    let after := rest.drop user.length
    if after.isEmpty && !isEnd then [.text chars false]
    else
      match homeOf? user home with
      | some directory => [.text directory true, .text after false]
      | none => [.text chars false]
  | _ => [.text chars false]

/-- The parts of a text between colons, each with a tilde that counts. -/
def tildeTexts (home : Option String) (isFirst isEnd : Bool) : List (List Char) → Word
  | [] => []
  | [chars] => if isFirst then tildeText home true isEnd chars else [.text chars false]
  | chars :: rest =>
    (if isFirst then tildeText home true true chars else [.text chars false]) ++
      .text [':'] false :: tildeTexts home true isEnd rest

/-- A word with home directories in place of tildes at its start. In a value that is assigned they
    may also stand behind a colon. -/
def withHomes (home : Option String) (isAssigned : Bool) : Bool → Word → Word
  | _, [] => []
  | isFirst, .text chars false :: rest =>
    if isAssigned then
      tildeTexts home isFirst rest.isEmpty (chars.splitOnP (· = ':')) ++
        withHomes home isAssigned false rest
    else if isFirst then tildeText home false rest.isEmpty chars ++ rest
    else .text chars false :: rest
  | _, part :: rest =>
    if isAssigned then part :: withHomes home isAssigned false rest else part :: rest

end Word

namespace Interpreter

/-- A word with home directories in place of its tildes. -/
def withHomes (isAssigned : Bool) (w : Word) : Run Word :=
  return w.withHomes ((← Run.process).value? "HOME") isAssigned true

/-- The characters that a word stands for, where no fields are made. -/
def text (i : Interpreter) (w : Word) : Run (List Char) :=
  return Piece.plain (← i.expand ⟨false, false, false⟩ (← withHomes false w))

/-- As `text`, for a value that is assigned. -/
def assignedText (i : Interpreter) (w : Word) : Run (List Char) :=
  return Piece.plain (← i.expand ⟨false, false, false⟩ (← withHomes true w))

/-- The pattern that a word stands for. -/
def pattern (i : Interpreter) (w : Word) : Run (List Glob) :=
  return Glob.ofMarked (Piece.allMarked (← i.expand ⟨false, false, false⟩ (← withHomes false w)))

/-- The fields that a word stands for. -/
def fields (i : Interpreter) (w : Word) : Run (List String) := do
  let pieces ← i.expand ⟨false, true, false⟩ (← withHomes false w)
  let p ← Run.process
  let disk ← Run.disk
  return (Fields.ofPieces p.separators pieces).flatMap fun field =>
    if p.options.contains 'f' then [String.ofList (field.map (·.1))]
    else Pathname.ofField disk field

/-- The arguments of the script, each a field of its own. -/
def argumentPieces (p : Process) (inQuotes : Bool) : List Piece :=
  let pieces := p.arguments.map fun a =>
    if inQuotes then [Piece.quotes, .text a.toList true] else [.value a.toList]
  [Piece.boundary inQuotes].intercalate pieces

/-- The value of a parameter as it stands in a word. There is none if the parameter has none. -/
def value? (place : Placing) (name : String) : Run (Option (List Piece)) := do
  let p ← Run.process
  if place.isCut && (name = "@" || (name = "*" && !place.inQuotes)) then
    return some (argumentPieces p place.inQuotes)
  else return (p.parameter? name).map fun v => [Piece.ofValue place.inQuotes v.toList]

/-- What stands in place of a value that is missing. -/
def missing (name : String) : Run Unit := do
  if ← Run.isSet 'u' then Run.fail (name ++ ": parameter not set")

/-- The number of characters in a parameter. -/
def lengthOf (name : String) : Run Nat := do
  let p ← Run.process
  if name = "@" || name = "*" then
    return (" ".intercalate p.arguments).length
  match p.parameter? name with
  | some v => return v.length
  | none =>
    missing name
    return 0

/-- A parameter in a word. -/
def parameter (i : Interpreter) (place : Placing) (name : String) : Use → Run (List Piece)
  | .plain => do
    match ← value? place name with
    | some pieces => return pieces
    | none =>
      missing name
      return []
  | .length => return [.ofValue place.inQuotes (Text.ofNat (← lengthOf name))]
  | .orElse emptyToo word => do
    if isThere (← Run.process) emptyToo then return (← value? place name).getD []
    else inPlace word
  | .alternative emptyToo word => do
    if isThere (← Run.process) emptyToo then inPlace word else return []
  | .assign emptyToo word => do
    if !isThere (← Run.process) emptyToo then
      let text ← i.expand ⟨place.inQuotes, false, false⟩ (← tilded word)
      if !isName name.toList then Run.fail (name ++ ": bad variable name")
      Run.assign name (Piece.plainText text)
    return (← value? place name).getD []
  | .require emptyToo message => do
    if !isThere (← Run.process) emptyToo then
      let text ← if message.isEmpty then
          pure ("parameter not set" ++ if emptyToo then " or null" else "")
        else Piece.plainText <$> i.expand ⟨place.inQuotes, false, false⟩ (← tilded message)
      Run.fail (name ++ ": " ++ text)
    return (← value? place name).getD []
  | .trimStart isLongest word => trimmed (Glob.trimStart isLongest) word
  | .trimEnd isLongest word => trimmed (Glob.trimEnd isLongest) word
  | .unknown => Run.fail "Bad substitution"
where
  /-- Whether the parameter has a value that counts. -/
  isThere (p : Process) (emptyToo : Bool) : Bool :=
    (p.parameter? name).any fun v => !(emptyToo && v.isEmpty)
  tilded (word : Word) : Run Word := if place.inQuotes then return word else withHomes false word
  inPlace (word : Word) : Run (List Piece) := do
    i.expand { place with inBraces := true } (← tilded word)
  trimmed (trim : List Glob → List Char → List Char) (word : Word) : Run (List Piece) := do
    match (← Run.process).parameter? name with
    | some v => return [.ofValue place.inQuotes (trim (← i.pattern word) v.toList)]
    | none =>
      missing name
      return []

/-- A part of a word. -/
def part (i : Interpreter) (place : Placing) : Part → Run (List Piece)
  | .text chars isQuoted =>
    return [if isQuoted || place.inQuotes then .text chars true
      else if place.inBraces then .value chars else .text chars false]
  | .quotes [.parameter "@" .plain] => do
    if place.isCut then return argumentPieces (← Run.process) true
    else i.parameter { place with inQuotes := true } "@" .plain
  | .quotes inside => return .quotes :: (← i.expand { place with inQuotes := true } inside)
  | .parameter name use => i.parameter place name use
  | .output body => return [.ofValue place.inQuotes (← i.output body)]
  | .number expression => do
    let text := Piece.plain (← i.expand ⟨true, false, false⟩ expression)
    let n ← Arithmetic.value text
    return [.ofValue place.inQuotes (Text.ofInt n.toInt)]

/-- The parts of a word, of which those before have made the given pieces, the last ones first. -/
def parts (i : Interpreter) (place : Placing) : Word → List (List Piece) → Run (List Piece)
  | [], done => return done.reverse.flatten
  | p :: rest, done => do i.parts place rest ((← i.part place p) :: done)

end Interpreter

/-! Redirections. -/

/-- Paths that lead to something other than a file. -/
inductive Device where
  | nothing
  | zeros
  /-- What a descriptor leads to. -/
  | descriptor (n : Nat)
deriving DecidableEq

def Device.ofPath? (path : String) : Option Device :=
  match path with
  | "/dev/null" => some .nothing
  | "/dev/zero" => some .zeros
  | "/dev/stdin" => some (.descriptor 0)
  | "/dev/stdout" => some (.descriptor 1)
  | "/dev/stderr" => some (.descriptor 2)
  | path =>
    ["/dev/fd/", "/proc/self/fd/"].findSome? fun start =>
      if start.toList.isPrefixOf path.toList then
        (Text.digits? (path.toList.drop start.length)).map Device.descriptor
      else none

/-- A redirection whose words were dealt with. -/
inductive Target where
  | file (descriptor : Nat) (opening : Opening) (path : String)
  /-- There is no source if the descriptor is closed. -/
  | copy (descriptor : Nat) (source : Option Nat)
  | document (descriptor : Nat) (bytes : List UInt8)

namespace Interpreter

def target (i : Interpreter) : Redirect → Run Target
  | .file descriptor opening path =>
    return .file descriptor opening (String.ofList (← i.text path))
  | .copy descriptor source => do
    match ← i.text source with
    | ['-'] => return .copy descriptor none
    | [c] =>
      if c.isDigit then return .copy descriptor (some (c.toNat - '0'.toNat))
      else Run.fail "Syntax error: Bad fd number"
    | _ => Run.fail "Syntax error: Bad fd number"
  | .document descriptor index => do
    let word := (← Run.world).documents[index]?.getD []
    let pieces ← i.expand ⟨true, false, false⟩ word
    return .document descriptor (Octets.toBytes (Piece.plain pieces))

end Interpreter

namespace Target

/-- Says why a file was not opened. -/
def refuse (verb path reason : String) : Run Bool := do
  Run.warn ("cannot " ++ verb ++ " " ++ path ++ ": " ++ reason)
  return false

def connect (descriptor : Nat) (channel : Channel) : Run Bool := do
  Run.setDescriptor descriptor (some (← Run.addChannel channel))
  return true

def copyDescriptor (descriptor source : Nat) : Run Bool := do
  match ← Run.channelOf source with
  | some index =>
    Run.setDescriptor descriptor (some index)
    return true
  | none =>
    Run.warn (decimal source ++ ": Bad file descriptor")
    return false

/-- Opens a file that is there. -/
def openForReading (descriptor : Nat) (path : String) : Run Bool := do
  match (← Run.disk).lookup (Octets.decode path) with
  | .ok (.file bytes) => connect descriptor (.source bytes true)
  | .ok (.directory _) => connect descriptor .directory
  | .error .notFound | .error .notADirectory => refuse "open" path "No such file"
  | .error fault => refuse "open" path fault.reason

/-- Opens a file that may have to be made. -/
def openForWriting (descriptor : Nat) (opening : Opening) (path : String) : Run Bool := do
  let disk ← Run.disk
  let name := Octets.decode path
  let keeps := opening = .write && (← Run.isSet 'C') && disk.isFile name
  if keeps then return ← refuse "create" path "File exists"
  let old := if opening = .append || opening = .readWrite then disk.read name else .ok []
  match disk.place name, disk.write name (old.toOption.getD []) with
  | .ok place, .ok disk =>
    Run.setDisk disk
    if opening = .readWrite then connect descriptor (.source (old.toOption.getD []) true)
    else connect descriptor (.file place 0 (opening = .append))
  | .error fault, _ | _, .error fault =>
    match fault with
    | .notFound | .notADirectory => refuse "create" path "Directory nonexistent"
    | fault => refuse "create" path fault.reason

/-- Carries a redirection out, and tells whether that worked. -/
def apply : Target → Run Bool
  | .document descriptor bytes => connect descriptor (.source bytes false)
  | .copy descriptor none => do
    Run.setDescriptor descriptor none
    return true
  | .copy descriptor (some source) => copyDescriptor descriptor source
  | .file descriptor opening path => do
    match Device.ofPath? path with
    | some .nothing =>
      let isRead := opening = .read || opening = .readWrite
      connect descriptor (if isRead then .source [] false else .discard)
    | some .zeros => connect descriptor (if opening = .read then .endless 0 else .discard)
    | some (.descriptor source) =>
      match ← Run.channelOf source with
      | some index =>
        Run.setDescriptor descriptor (some index)
        return true
      | none =>
        if opening = .read then refuse "open" path "No such file"
        else refuse "create" path "Directory nonexistent"
    | none =>
      if opening = .read then openForReading descriptor path
      else openForWriting descriptor opening path

/-- Carries redirections out up to the first that does not work. -/
def applyAll : List Target → Run Bool
  | [] => return true
  | t :: rest => do
    if ← t.apply then applyAll rest else return false

end Target

end PluginHost.Shell
