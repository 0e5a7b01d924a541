import PluginHost.Utility.Task
import PluginHost.Utility.Sed.Script
/-!
What the stream editor does with lines, and the editor as a utility.
-/

namespace PluginHost.Utility

namespace Sed

/-- A line of the input, and whether its end was there. -/
structure Line where
  text : List Char
  hasEnd : Bool
deriving Inhabited

/-- Files as they are read, one after another. -/
structure Source where
  name : String
  lines : List Line
deriving Inhabited

/-- Whether a range of lines is under way, and which line ends it if a number tells. -/
inductive RangeState where
  | idle
  | active (last : Option Nat)
  | closed
deriving DecidableEq, Inhabited

/-- What is written once a line is done. -/
inductive Queued where
  | text (s : List Char)
  | file (path : String)
deriving Inhabited

structure Editing where
  isQuiet : Bool
  /-- Whether the last line of each file counts as one. -/
  isSeparate : Bool
  lineEnd : Char
  current : Source
  later : List Source
  /-- The line that is worked on. -/
  pattern : Line
  hold : Line
  number : Nat
  ranges : Array RangeState
  lastSought : Option Sought
  queue : List Queued
  /-- Whether something was replaced since it was asked for. -/
  isDone : Bool
  /-- What was written, the newest first, and whether its last line has no end. -/
  written : List (List Char)
  isOpen : Bool
deriving Inhabited

abbrev Edit (α : Type) := StateT Editing Task α

/-- How the work on a line ends. -/
inductive Ending where
  | done
  /-- Work starts anew on what is left of the line. -/
  | again
  | quit (status : Nat)
deriving Inhabited

/-- How many commands are carried out for a line at most. -/
def mostSteps : Nat := 0x1000000

def fault {α : Type} (message : String) : Edit α := do
  Task.putError ("sed: -e expression #1, char 0: " ++ message ++ "\n")
  Task.exit 1

/-- Writes a text. A line that has no end yet gets one. -/
def emit (s : List Char) : Edit Unit :=
  modify fun e => { e with
    written := s :: (if e.isOpen then [e.lineEnd] :: e.written else e.written), isOpen := false }

def emitLine (text : List Char) (hasEnd : Bool) : Edit Unit := do
  let e ← get
  emit (if hasEnd then text ++ [e.lineEnd] else text)
  if !hasEnd then modify fun e => { e with isOpen := true }

/-- Writes a line into a file that a command names. -/
def writeTo (path : String) (text : List Char) (hasEnd : Bool) : Edit Unit := do
  if path = "/dev/stdout" then emitLine text hasEnd
  else
    let mark := (← get).lineEnd
    let _ ← Task.writeFile path true (if hasEnd then text ++ [mark] else text)

/-- Writes what was kept for the end of a line. -/
def emitQueue : Edit Unit := do
  let queue := (← get).queue
  modify fun e => { e with queue := [] }
  queue.reverse.forM fun q => do
    match q with
    | .text s => emit s
    | .file path =>
      match ← Task.readFile path with
      | .ok s => if !s.isEmpty then emit s
      | .error _ => return

/-- Whether there are no more lines. -/
def isAtEnd : Edit Bool := do
  let e ← get
  return e.current.lines.isEmpty && (e.isSeparate || e.later.all (·.lines.isEmpty))

/-- Goes on to the next line, which may come behind what is there. -/
def readLine (isAppended : Bool) : Edit Bool := do
  let (source, later) := go (← get).current (← get).later (← get).isSeparate
  match source.lines with
  | [] => return false
  | line :: rest =>
    emitQueue
    modify fun e => { e with
      current := { source with lines := rest }, later, number := e.number + 1
      pattern := if isAppended then ⟨e.pattern.text ++ e.lineEnd :: line.text, line.hasEnd⟩ else line }
    return true
where
  go (source : Source) (later : List Source) (isSeparate : Bool) : Source × List Source :=
    match later with
    | [] => (source, [])
    | next :: rest =>
      if source.lines.isEmpty && !isSeparate then go next rest isSeparate else (source, later)

/-- The expression that is meant, which is then the one used last. -/
def meant (s : Option Sought) : Edit Sought := do
  match s <|> (← get).lastSought with
  | some s =>
    modify fun e => { e with lastSought := some s }
    return s
  | none => fault "no previous regular expression"

def matchesAddress (a : Address) : Edit Bool := do
  let e ← get
  match a with
  | .line n => return e.number = n
  | .every first 0 => return e.number = first
  | .every first step => return first ≤ e.number && (e.number - first) % step = 0
  | .last => isAtEnd
  | .sought s =>
    let s ← meant s
    return s.regex.isIn ⟨(← get).pattern.text.toArray, s.ignoresCase⟩

/-- Whether a command is for the line that is worked on. -/
def isChosen (place : Nat) (c : Command) : Edit Bool := do
  match c.first, c.stop with
  | none, _ => return true
  | some a, none => matchesAddress a
  | some a, some stop =>
    let setRange := fun (r : RangeState) => modify fun (e : Editing) => { e with
      ranges := e.ranges.setIfInBounds place r }
    let e ← get
    let start := fun (_ : Unit) => show Edit Bool from do
      if !(← matchesAddress a) then return false
      let last := match stop with
        | .at (.line n) => some n
        | .at _ => none
        | .after count => some (e.number + count)
        | .multiple n => some (if n = 0 then e.number else (e.number / n + 1) * n)
      if last.any (· ≤ e.number) then setRange .closed else setRange (.active last)
      return true
    match e.ranges[place]?.getD .idle with
    | .idle => start ()
    | .closed =>
      match a with
      | .line _ => return false
      | _ => start ()
    | .active (some last) =>
      if last ≤ e.number then setRange .closed
      if e.number ≤ last then return true
      else match a with
        | .line _ => return false
        | _ => start ()
    | .active none =>
      match stop with
      | .at b =>
        if ← matchesAddress b then setRange .closed
        return true
      | _ => return true

/-- A text with its letters changed: all of them, or the first one. What comes next is changed as is
    given back. -/
structure Cased where
  all : Casing
  first : Casing
  /-- The newest character first. -/
  written : List Char

namespace Cased

def put (k : Cased) (s : List Char) : Cased :=
  s.foldl (fun k c =>
    let c := match k.first, k.all with
      | .upperNext, _ => c.toUpper
      | .lowerNext, _ => c.toLower
      | _, .upper => c.toUpper
      | _, .lower => c.toLower
      | _, _ => c
    { k with first := .plain, written := c :: k.written }) k

def switch (k : Cased) (casing : Casing) : Cased :=
  match casing with
  | .upperNext | .lowerNext => { k with first := casing }
  | casing => { k with all := casing, first := .plain }

end Cased

/-- What is put in place of a match. -/
def replacement (pieces : List Piece) (s : Subject) (m : Regex.Match) : List Char :=
  (pieces.foldl (fun (k : Cased) piece => match piece with
    | .char c => k.put [c]
    | .group n => k.put (m.group s n)
    | .casing casing => k.switch casing) ⟨.plain, .plain, []⟩).written.reverse

/-- A text with matches replaced, from a position on: parts of it, the newest first, and whether
    something was replaced. The fuel bounds the positions. -/
def replaceFrom (p : Substitution) (q : Sought) (s : Subject) :
    Nat → Nat → Nat → Option Nat → List (List Char) → Bool → List (List Char) × Bool
  | 0, _, _, _, done, isDone => (done, isDone)
  | fuel + 1, start, count, before, done, isDone =>
    let between := fun a b => (s.chars.extract a b).toList
    let rest := fun (from' : Nat) => between from' s.chars.size
    if s.chars.size < start then (done, isDone)
    else
      match q.regex.search? s start with
      | none => (rest start :: done, isDone)
      | some m =>
        let done := between start m.start :: done
        let isEmpty := m.start == m.stop
        let next := fun (count : Nat) (done : List (List Char)) (isDone : Bool) =>
          if isEmpty then
            replaceFrom p q s fuel (m.stop + 1) count (some m.stop)
              (between m.stop (m.stop + 1) :: done)
              isDone
          else replaceFrom p q s fuel m.stop count (some m.stop) done isDone
        if isEmpty && before = some m.start then next count done isDone
        else if count + 1 < p.first then next (count + 1) (between m.start m.stop :: done) isDone
        else
          let done := replacement p.pieces s m :: done
          if p.isGlobal then next (count + 1) done true else (rest m.stop :: done, true)

/-- A character as it is listed. -/
def listed (c : Char) : List Char :=
  match c with
  | '\\' => ['\\', '\\']
  | '\x07' => ['\\', 'a']
  | '\x08' => ['\\', 'b']
  | '\x0c' => ['\\', 'f']
  | '\n' => ['\\', 'n']
  | '\r' => ['\\', 'r']
  | '\t' => ['\\', 't']
  | '\x0b' => ['\\', 'v']
  | c =>
    if 0x20 ≤ c.toNat && c.toNat < 0x7F then [c]
    else
      let digits := Nat.toDigits 8 c.toNat
      '\\' :: List.replicate (3 - digits.length) '0' ++ digits

/-- A line as it is listed, broken where it becomes too wide. -/
def listing (width : Nat) (text : List Char) : List Char :=
  let (done, _) := text.foldl (fun (done, column) c =>
    let s := listed c
    if 1 < width && width - 1 < column + s.length then (s :: ['\\', '\n'] :: done, s.length)
    else (s :: done, column + s.length)) (([] : List (List Char)), 0)
  done.reverse.flatten ++ ['$', '\n']

/-- Carries commands out from a place on. The fuel bounds their number. -/
def run (script : Script) : Nat → Nat → Edit Ending
  | 0, _ => return .done
  | fuel + 1, place => do
    let finish := fun (_ : Unit) => show Edit Ending from do
      let e ← get
      if !e.isQuiet then emitLine e.pattern.text e.pattern.hasEnd
      return .done
    match script.commands[place]? with
    | none => finish ()
    | some c =>
      let goTo := fun (label : String) => if label.isEmpty then finish () else
        match script.labels.lookup label with
        | some place => run script fuel place
        | none => finish ()
      let setText := fun (text : List Char) => modify fun (e : Editing) => { e with
        pattern := { e.pattern with text } }
      if (← isChosen place c) == c.isNegated then
        match c.action with
        | .block stop => run script fuel (stop + 1)
        | _ => run script fuel (place + 1)
      else
        let e ← get
        let text := e.pattern.text
        let goOn := fun (_ : Unit) => run script fuel (place + 1)
        let behind := fun (a b : Line) => (⟨a.text ++ e.lineEnd :: b.text, b.hasEnd⟩ : Line)
        let setPattern := fun (pattern : Line) => modify fun (e : Editing) => { e with pattern }
        let setHold := fun (hold : Line) => modify fun (e : Editing) => { e with hold }
        let firstLine := text.takeWhile (· ≠ e.lineEnd)
        match c.action with
        | .block _ | .blockEnd | .label | .nothing => goOn ()
        | .number =>
          emit (Text.ofNat e.number ++ ['\n'])
          goOn ()
        | .append s =>
          modify fun e => { e with queue := .text s :: e.queue }
          goOn ()
        | .insert s =>
          emit s
          goOn ()
        | .change s =>
          let isUnderWay := match e.ranges[place]?.getD .idle with
            | .active _ => c.stop.isSome
            | _ => false
          if !isUnderWay || c.isNegated then emit s
          return .done
        | .branch label => goTo label
        | .branchIfDone label =>
          modify fun e => { e with isDone := false }
          if e.isDone then goTo label else goOn ()
        | .branchUnlessDone label =>
          modify fun e => { e with isDone := false }
          if e.isDone then goOn () else goTo label
        | .delete => return .done
        | .deleteLine =>
          if text.contains e.lineEnd then
            setText (text.drop (firstLine.length + 1))
            return .again
          else return .done
        | .fromHold =>
          setPattern e.hold
          goOn ()
        | .appendHold =>
          setPattern (behind e.pattern e.hold)
          goOn ()
        | .toHold =>
          setHold e.pattern
          goOn ()
        | .appendToHold =>
          setHold (behind e.hold e.pattern)
          goOn ()
        | .exchange =>
          setPattern e.hold
          setHold e.pattern
          goOn ()
        | .list width =>
          emit (listing (width.getD 70) text)
          goOn ()
        | .next =>
          if ← isAtEnd then finish ()
          else
            if !e.isQuiet then emitLine text e.pattern.hasEnd
            let _ ← readLine false
            goOn ()
        | .appendNext =>
          if ← isAtEnd then finish ()
          else
            let _ ← readLine true
            goOn ()
        | .print =>
          emitLine text e.pattern.hasEnd
          goOn ()
        | .printLine =>
          emitLine firstLine (text.contains e.lineEnd || e.pattern.hasEnd)
          goOn ()
        | .quit status isSilent =>
          if !isSilent then
            let _ ← finish ()
            emitQueue
          return .quit status
        | .readFile path =>
          modify fun e => { e with queue := .file path :: e.queue }
          goOn ()
        | .writeFile path =>
          writeTo path text e.pattern.hasEnd
          goOn ()
        | .writeLine path =>
          writeTo path firstLine true
          goOn ()
        | .substitute p =>
          let q ← meant p.sought
          let s : Subject := ⟨text.toArray, q.ignoresCase⟩
          let (parts, isDone) := replaceFrom p q s (s.chars.size + 2) 0 0 none [] false
          if isDone then
            let new := parts.reverse.flatten
            setText new
            modify fun e => { e with isDone := true }
            if p.isPrinted then emitLine new e.pattern.hasEnd
            p.file.forM fun path => writeTo path new e.pattern.hasEnd
          goOn ()
        | .replaceChars table =>
          setText (text.map fun ch => (table.lookup ch).getD ch)
          goOn ()
        | .fileName =>
          emit (e.current.name.toList ++ ['\n'])
          goOn ()
        | .zap =>
          setText []
          goOn ()

/-- Works on the lines of the input. The fuel bounds how often it begins anew. The status is given if
    the work was broken off. -/
def cycles (script : Script) : Nat → Bool → Edit (Option Nat)
  | 0, _ => return none
  | fuel + 1, needsLine => do
    if needsLine then
      modify fun e => { e with isDone := false }
      if !(← readLine false) then
        emitQueue
        return none
    else emitQueue
    match ← run script mostSteps 0 with
    | .done => cycles script fuel true
    | .again => cycles script fuel false
    | .quit status => return some status

/-! The utility. -/

/-- What is said of how the utility is called. -/
def usage : String :=
  "Usage: sed [OPTION]... \x7bscript-only-if-no-other-script\x7d [input-file]...\n"

def options : Options := ⟨"bsnrzuEe:f:l:i::", [("quiet", 'n'), ("silent", 'n'), ("expression", 'e'),
  ("file", 'f'), ("in-place", 'i'), ("line-length", 'l'), ("regexp-extended", 'E'), ("separate", 's'),
  ("unbuffered", 'u'), ("null-data", 'z'), ("posix", 'b'), ("binary", 'b')], true, 1⟩

/-- A text of commands, and what it is called in messages. -/
structure ScriptText where
  text : List Char
  /-- The name of the file it comes from. -/
  file : Option String
deriving Inhabited

/-- Texts of commands, of which those that end in the middle of added lines go on in the next one. -/
def linked : List ScriptText → List ScriptText
  | a :: b :: rest =>
    let isOpen := (a.text.reverse.takeWhile (· = '\\')).length % 2 = 1
    match linked (b :: rest) with
    | next :: rest =>
      if isOpen && a.file.isNone && next.file.isNone then ⟨a.text ++ '\n' :: next.text, none⟩ :: rest
      else a :: next :: rest
    | [] => [a]
  | texts => texts

/-- The script that texts make up. -/
def scriptOf (c : Call) (isExtended : Bool) (texts : List ScriptText) : Task Script := do
  let rec go (reading : Reading) (n : Nat) : List ScriptText → Task Reading
    | [] => return reading
    | t :: rest => do
      let count := if t.file.isNone then n + 1 else n
      match reading.add isExtended t.text with
      | .ok reading => go reading count rest
      | .error f =>
        let read := f.left.elim 0 fun left => t.text.length - left
        match t.file with
        | some file =>
          let line := ((t.text.take read).filter (· = '\n')).length + 1
          c.fail ("file " ++ file ++ " line " ++ toString line ++ ": " ++ f.message) 1
        | none =>
          c.fail ("-e expression #" ++ toString count ++ ", char " ++ toString read ++ ": " ++
            f.message) 1
  let reading ← go .start 0 texts
  let isQuiet := match texts with
    | t :: _ => t.text = ['#', 'n'] || ['#', 'n', '\n'].isPrefixOf t.text
    | [] => false
  match reading.script isQuiet with
  | .ok script => return script
  | .error f => c.fail ("-e expression #1, char 0: " ++ f.message) 1

/-- The lines of a text, as a mark ends them. -/
def linesWith (mark : Char) (s : List Char) : List Line :=
  let parts := s.splitOnP (· = mark)
  match parts.getLast? with
  | some last =>
    parts.dropLast.map (⟨·, true⟩) ++ if last.isEmpty then [] else [⟨last, false⟩]
  | none => []

/-- The state in which work on some files starts. -/
def start (script : Script) (p : Parsed) (hold : Line) (sources : List Source) : Editing :=
  let ranges := script.commands.map fun c => match c.first, c.stop with
    | some (.line 0), some _ => .active none
    | _, _ => .idle
  { isQuiet := p.has 'n' || script.isQuiet, isSeparate := p.has 's' || p.has 'i'
    lineEnd := if p.has 'z' then Char.ofNat 0 else '\n'
    current := sources.head?.getD ⟨"-", []⟩, later := sources.drop 1
    pattern := ⟨[], true⟩, hold, number := 0, ranges, lastSought := none, queue := [], isDone := false
    written := [], isOpen := false }

/-- Works on each file on its own. Some results are written into the file. -/
def eachAlone (script : Script) (p : Parsed) : Line → List Source → Task (Option Nat)
  | _, [] => return none
  | hold, source :: rest => do
    let (status, e) ← (cycles script mostSteps true).run (start script p hold [source])
    let text := e.written.reverse.flatten
    if p.has 'i' then
      match p.text? 'i' with
      | some ending =>
        if !ending.isEmpty then
          let old ← Task.readFile source.name
          let target := if ending.toList.contains '*' then source.name.intercalate (ending.splitOn "*")
            else source.name ++ ending
          let _ ← Task.writeFile target false (old.toOption.getD [])
      | none => pure ()
      let _ ← Task.writeFile source.name false text
    else Task.put text
    match status with
    | some status => return some status
    | none => eachAlone script p e.hold rest

end Sed

open Sed in
def sed : Program := fun c => do
  let p ← options.parse c
  let texts ← (p.found.filter fun f => f.1 ∈ ['e', 'f']).mapM fun (letter, text) => do
    if letter = 'e' then return (⟨text.toList, none⟩ : ScriptText)
    match ← Task.readFile text with
    | .ok s => return ⟨if s.getLast? = some '\n' then s.dropLast else s, some text⟩
    | .error fault => c.fail ("couldn't open file " ++ text ++ ": " ++ fault.reason) 4
  if texts.isEmpty && p.operands.isEmpty then
    Task.putError usage
    Task.exit 1
  let (texts, paths) :=
    if texts.isEmpty then ([⟨(p.operands.head?.getD "").toList, none⟩], p.operands.drop 1)
    else (texts, p.operands)
  let script ← scriptOf c (p.has 'E' || p.has 'r') (linked texts)
  script.commands.forM fun command => do
    let file := match command.action with
      | .writeFile path | .writeLine path => some path
      | .substitute s => s.file
      | _ => none
    let label := match command.action with
      | .branch label | .branchIfDone label | .branchUnlessDone label => label
      | _ => ""
    if !label.isEmpty && (script.labels.lookup label).isNone then
      c.fail ("can't find label for jump to `" ++ label ++ "'") 4
    match file with
    | some path => if path ≠ "/dev/stdout" then
        let _ ← Task.writeFile path false []
    | none => return
  let mark := if p.has 'z' then Char.ofNat 0 else '\n'
  let sources ← (if paths.isEmpty then ["-"] else paths).filterMapM fun path => do
    match ← Task.readFile path with
    | .ok s => return some (⟨path, linesWith mark s⟩ : Source)
    | .error .isADirectory =>
      if p.has 'i' then c.say ("couldn't edit " ++ path ++ ": not a regular file")
      else c.say ("read error on " ++ path ++ ": Is a directory")
      Task.setStatus 4
      return none
    | .error fault =>
      c.say ("can't read " ++ path ++ ": " ++ fault.reason)
      Task.setStatus 2
      return none
  let status ← if p.has 's' || p.has 'i' then eachAlone script p ⟨[], true⟩ sources
    else do
      let (status, e) ← (cycles script mostSteps true).run (start script p ⟨[], true⟩ sources)
      Task.put e.written.reverse.flatten
      pure status
  status.forM fun n => if n = 0 then pure () else Task.setStatus n

end PluginHost.Utility
