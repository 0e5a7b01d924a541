import PluginHost.Shell.Builtin.Control
import PluginHost.Shell.Builtin.Variables
import PluginHost.Shell.Condition
import PluginHost.Shell.Installation
import PluginHost.Shell.Expansion
import PluginHost.Text.Formatting
/-!
What the names of commands lead to: functions, commands of the shell itself, or programs. A program is a utility of
the machine, a shell, or a script in a file that may be run.
-/

namespace PluginHost.Shell

/-- The name of the program of the machine that a path leads to. -/
def World.machineProgram? (w : World) (path : String) : Option String :=
  let path := Octets.decode path
  if w.disk.isFile path then (w.disk.place path).toOption.bind programAt? else none

/-- The directories that are searched where no others are chosen. -/
def standardPath : String := "/usr/local/sbin:/usr/local/bin:/usr/sbin:/usr/bin:/sbin:/bin"

/-- What a search for a program finds. -/
inductive Search where
  | found (path : String)
  /-- There are only files that may not be run. -/
  | denied
  | missing

/-- Searches directories for a program. -/
def World.search (w : World) (directories : List (List Char)) (name : String) : Search :=
  if name ∈ ["", ".", ".."] then .denied
  else directories.foldr (fun d after =>
    let path := if d.isEmpty then name else String.ofList d ++ "/" ++ name
    if w.disk.isFile (Octets.decode path) then
      if w.isRunnable path then .found path
      else match after with
        | .missing => .denied
        | after => after
    else after) .missing

namespace Run

/-- Searches for a program in the directories that the variables tell, or in those that are always
    searched. -/
def search (isStandard : Bool) (name : String) : Run Search := do
  let p ← process
  let path := if isStandard then standardPath else (p.value? "PATH").getD ""
  return (← world).search (path.toList.splitOnP (· = ':')) name

/-- Keeps in mind that a program was found. -/
def keepFound (name : String) : Run Unit :=
  modifyProcess fun p => if p.found.contains name then p else { p with found := name :: p.found }

end Run

namespace Builtin

def echo : Builtin := fun _ _ arguments => put (String.ofList (Text.echoed arguments))

/-- What `printf` says of its arguments. -/
def wording : Text.Wording :=
  ⟨(· ++ ": expected numeric value"), (· ++ ": not completely converted"),
    (· ++ ": Numerical result out of range"), (· ++ ": invalid directive"), "missing format character"⟩

def printf : Builtin := fun _ _ arguments => do
  match ← withoutOptions arguments with
  | [] => Run.fail "usage: printf format [arg ...]"
  | format :: arguments =>
    let f := Text.formatted wording format arguments
    f.complaints.forM Run.warn
    f.fault.forM Run.warn
    let status ← put (String.ofList f.text)
    if f.fault.isSome then
      Run.setStatus 2
      throw .fault
    return if f.complaints.isEmpty then status else 1

def test : Builtin := fun _ _ arguments => do
  let words ← if (← Run.process).builtin = some "[" then
      if arguments.getLast? = some "]" then pure arguments.dropLast else Run.fail "missing ]"
    else pure arguments
  return if ← Condition.holds (words.length + 1) words then 0 else 1

def workingPath (disk : Disk) : String := Octets.encode ("/" ++ "/".intercalate disk.working)

def pwd : Builtin := fun _ _ arguments => do
  let _ ← options "LP" arguments
  putLines [workingPath (← Run.disk)]

/-- The place that a path leads to, as far as its text tells. -/
def placeByText (disk : Disk) (path : String) : List String :=
  let start := if Path.isAbsolute path then [] else disk.working
  (Path.segments path).foldl (fun place segment => match segment with
    | [] | ['.'] => place
    | ['.', '.'] => place.dropLast
    | name => place ++ [String.ofList name]) start

def cd : Builtin := fun _ _ arguments => do
  let (found, words) ← options "LP" arguments
  let p ← Run.process
  let (word, isShown) := match words with
    | [] => ((p.value? "HOME").getD "", false)
    | "-" :: _ => ((p.value? "OLDPWD").getD "", true)
    | word :: _ => (word, false)
  let disk ← Run.disk
  let name := Octets.decode (if word.isEmpty then "." else word)
  let isPhysical := found.getLast?.any (·.1 = 'P')
  let path := if isPhysical then name else "/" ++ "/".intercalate (placeByText disk name)
  match disk.place path, disk.isDirectory path with
  | .ok working, true =>
    let before := (p.value? "PWD").getD (workingPath disk)
    Run.setDisk { disk with working }
    Run.declare "OLDPWD" (some before) true false
    Run.declare "PWD" (some (workingPath { disk with working })) true false
    if isShown then putLines [workingPath { disk with working }] else return 0
  | _, _ => Run.fail ("can't cd to " ++ word)

/-- The letters of three bits that are not in a mask. -/
def maskLetters (n : Nat) : String :=
  String.ofList ((if n / 4 % 2 = 0 then ['r'] else []) ++ (if n / 2 % 2 = 0 then ['w'] else []) ++
    (if n % 2 = 0 then ['x'] else []))

def umask : Builtin := fun _ _ arguments => do
  let (found, words) ← options "S" arguments
  match words with
  | [] =>
    let mask := (← Run.process).mask
    if found.isEmpty then
      let digits := Nat.toDigits 8 mask
      putLines [String.ofList (List.replicate (4 - digits.length) '0' ++ digits)]
    else
      putLines ["u=" ++ maskLetters (mask / 64 % 8) ++ ",g=" ++ maskLetters (mask / 8 % 8) ++ ",o=" ++
        maskLetters (mask % 8)]
  | word :: _ =>
    if word.toList.all fun c => '0' ≤ c && c ≤ '7' then
      Run.modifyProcess fun p => { p with mask := Text.digitsValue 8 word.toList % 512 }
      return 0
    else if word.toList.head?.any Char.isDigit then Run.fail ("Illegal number: " ++ word)
    else return 0

def ulimit : Builtin := fun _ _ arguments => do
  if arguments.all fun a => a.toList.head? = some '-' then putLines ["unlimited"] else return 0

def times : Builtin := fun _ _ _ =>
  putLines ["0m0.000000s 0m0.000000s", "0m0.000000s 0m0.000000s"]

/-- Says in one line what a name leads to, or, in short, how it is called. -/
def describe (isShort : Bool) (isStandard : Bool) (isOwn : String → Bool) (name : String) :
    Run Nat := do
  let p ← Run.process
  let say := fun (short long : String) => putLines [if isShort then short else name ++ long]
  if name ∈ keywords then return ← say name " is a shell keyword"
  match p.aliases.lookup name with
  | some value =>
    return ← say ("alias " ++ aliasLine (name, value)) (" is an alias for " ++ value)
  | none => pure ()
  if (p.functions.lookup name).isSome then return ← say name " is a shell function"
  if name ∈ specialBuiltins then
    return ← say name " is a special shell builtin"
  if isOwn name then return ← say name " is a shell builtin"
  let missing := fun (_ : Unit) => do
    if isShort then return 127
    let _ ← put (name ++ ": not found\n")
    return 127
  if name.toList.contains '/' then
    if (← Run.disk).contains (Octets.decode name) then
      say name (" is " ++ name)
    else missing ()
  else
    match ← Run.search isStandard name with
    | .found path =>
      let isKnown := p.found.contains name
      Run.keepFound name
      say path ((if isKnown then " is a tracked alias for " else " is ") ++ path)
    | _ => missing ()

def hash : Builtin := fun _ _ arguments => do
  let (found, words) ← options "r" arguments
  if !found.isEmpty then Run.modifyProcess fun p => { p with found := [] }
  if words.isEmpty then
    (← Run.process).found.reverse.foldlM (fun status name => do
      match ← Run.search false name with
      | .found path =>
        let _ ← putLines [path]
        return status
      | _ => return status) 0
  else
    words.foldlM (fun status name => do
      match ← Run.search false name with
      | .found _ =>
        Run.keepFound name
        return status
      | _ =>
        Run.warn (name ++ ": not found")
        return 1) 0

def table : List (String × Builtin) :=
  [(".", dot), (":", fun _ _ _ => return 0), ("[", test), ("alias", setAliases), ("break", breakLoop),
   ("cd", cd), ("chdir", cd), ("continue", continueLoop), ("echo", echo), ("eval", eval),
   ("exit", exit), ("export", mark "export " true), ("false", fun _ _ _ => return 1),
   ("getopts", getopts), ("hash", hash), ("jobs", jobs), ("kill", kill), ("local", localNames),
   ("printf", printf), ("pwd", pwd), ("read", read), ("readonly", mark "readonly " false),
   ("return", giveBack), ("set", set), ("shift", shift), ("test", test), ("times", times),
   ("trap", trap), ("true", fun _ _ _ => return 0), ("ulimit", ulimit), ("umask", umask),
   ("unalias", unalias), ("unset", unset), ("wait", wait)]

/-- Whether a name is that of a command of the shell itself. -/
def isName (name : String) : Bool :=
  (table.lookup name).isSome || name ∈ ["command", "exec", "type", "bg", "fg"]

def type : Builtin := fun _ _ arguments =>
  arguments.foldlM (fun status name => do
    return max status (← describe false false isName name)) 0

def command : Builtin := fun _ _ arguments => do
  let (found, words) ← options "pvV" arguments
  let isStandard := found.any (·.1 = 'p')
  match found.find? (fun f => f.1 ≠ 'p'), words with
  | some (letter, _), name :: _ => describe (letter = 'v') isStandard isName name
  | _, _ => return 0

def find? (name : String) : Option Builtin :=
  match name with
  | "command" => some command
  | "type" => some type
  | "bg" | "fg" => some fun _ _ _ => Run.fail "No current job"
  | name => table.lookup name

/-- Whether a mistake in a command ends the script, and what is assigned in front of it stays. -/
def isSpecial (name : String) : Bool := name ∈ specialBuiltins

/-- Whether arguments that look like assignments are dealt with like those. -/
def takesAssignments (name : String) : Bool := name ∈ ["export", "readonly", "local"]

end Builtin

/-- What the name of a command leads to. -/
inductive Found where
  | function (body : Command)
  | builtin (run : Builtin)
  /-- The command that changes its own process. -/
  | exec
  | program (path : String)
  | missing (isDenied : Bool)

namespace Run

/-- What a name leads to. Functions may be passed over. -/
def find (skipsFunctions isStandard : Bool) (name : String) : Run Found := do
  let p ← process
  match if skipsFunctions then none else p.functions.lookup name with
  | some body => return .function body
  | none =>
    if name = "exec" then return .exec
    match Builtin.find? name with
    | some run => return .builtin run
    | none =>
      if name.toList.contains '/' then return .program name
      match ← search isStandard name with
      | .found path =>
        keepFound name
        return .program path
      | .denied => return .missing true
      | .missing => return .missing false

end Run

/-! Starting programs. -/

namespace Process

/-- The variables of a shell that starts. Those of its environment are exported. -/
def initialBindings (environment : List (String × String)) (working : String) (parent : Nat) :
    List Binding :=
  let standard := [("IFS", " \t\n"), ("OPTIND", "1"), ("PS1", "# "), ("PS2", "> "), ("PS4", "+ "),
    ("PATH", standardPath), ("PPID", decimal parent)]
  let given := environment.filter fun e => isName e.1.toList && e.1 ∉ ["IFS", "OPTIND", "PPID", "PWD"]
  let exported := given ++ [("PWD", working)]
  let own := standard.filter fun e => (exported.lookup e.1).isNone
  (exported.map fun e => ⟨e.1, some e.2, true, false⟩).reverse ++
    own.map fun e => ⟨e.1, some e.2, false, false⟩

/-- A shell that starts in place of a process. -/
def restarted (p : Process) (name : String) (working : String) : Process :=
  { p with
    shellId := p.id, name, arguments := [], functions := [], aliases := [], options := [],
    bindings := initialBindings p.environment working (p.ancestors.head?.getD 1),
    traps := p.traps.filter (·.2.isEmpty), line := 0, builtin := none, loops := 0, frames := [],
    keptOptions := [], isInFunction := false, status := 0, wordStatus := none, savedStatus := none,
    optionPlace := ⟨1, 0⟩, found := [], lastJob := none }

end Process

namespace Interpreter

/-- The options and the script of a shell that starts. -/
structure Beginning where
  takesScript : Bool
  words : List String

/-- Sets the options of a shell that starts. The fuel bounds the words. -/
def beginWith : Nat → Bool → List String → Run Beginning
  | 0, takesScript, words => return ⟨takesScript, words⟩
  | _, takesScript, [] => return ⟨takesScript, []⟩
  | fuel + 1, takesScript, word :: rest => do
    let letters := fun (isOn : Bool) (cs : List Char) => do
      let mut rest := rest
      let mut takesScript := takesScript
      for c in cs do
        if c = 'c' then takesScript := true
        else if c = 'l' then takesScript := takesScript
        else if c = 'o' then
          match rest with
          | name :: more =>
            Builtin.setNamedOption isOn name
            rest := more
          | [] =>
            -- nothing is settled yet about the options, which all count as on
            let options := ' ' :: Builtin.optionNames.map (·.1)
            let _ ← Builtin.putLines (Builtin.optionTable { (← Run.process) with options } !isOn)
        else Builtin.setOption isOn c
      beginWith fuel takesScript rest
    match word.toList with
    | ['-'] | ['-', '-'] => return ⟨takesScript, rest⟩
    | '-' :: cs => letters true cs
    | '+' :: cs => letters false cs
    | _ => return ⟨takesScript, word :: rest⟩

/-- What a shell does that was started under a name with some arguments. -/
def shell (i : Interpreter) (name : String) (arguments : List String) : Run Unit := do
  let working := Builtin.workingPath (← Run.disk)
  Run.modifyProcess fun p => p.restarted name working
  let start ← beginWith (arguments.length + 1) false arguments
  let begin := fun (name : String) (words : List String) =>
    Run.modifyProcess fun p => { p with name, arguments := words }
  if start.takesScript then
    match start.words with
    | [] => Run.fail "-c requires an argument"
    | script :: rest =>
      match rest with
      | name :: words => begin name words
      | [] => pure ()
      i.script ⟨false, true⟩ script.toList
  else if start.words.isEmpty || (← Run.process).options.contains 's' then
    Run.modifyProcess fun p => { p with arguments := start.words, options := 's' :: p.options }
    match ← Run.readable 0 with
    | some (.source bytes _) =>
      Run.setReadable 0 []
      i.script ⟨false, false⟩ (Octets.ofBytes bytes)
    | _ => return
  else
    match start.words with
    | [] => return
    | path :: words =>
      match (← Run.disk).lookup (Octets.decode path) with
      | .ok (.file bytes) =>
        begin path words
        i.script ⟨false, false⟩ (Octets.ofBytes bytes)
      | .ok (.directory _) => begin path words
      | .error .notFound | .error .notADirectory =>
        Run.fail ("cannot open " ++ path ++ ": No such file")
      | .error fault => Run.fail ("cannot open " ++ path ++ ": " ++ fault.reason)

/-- What a utility reads from a channel. -/
def inputOf : Option Channel → Utility.Input
  | some (.source bytes isFile) => .text (Octets.ofBytes bytes) isFile
  | some (.endless byte) => .endless (Char.ofNat byte.toNat)
  | some .directory => .directory
  | _ => .closed

/-- What a command leaves that is run by a shell of its own on a text. -/
def commandResult (i : Interpreter) (s : State) (disk : Disk) (runnable : List (List String))
    (shell command : String) (input : List Char) : Utility.CommandResult :=
  let count := s.world.channels.size
  let run : Run ExitStatus := do
    let _ ← Run.addChannel (.source (Octets.toBytes input) false)
    let _ ← Run.addChannel (.collector [] 0)
    let _ ← Run.addChannel (.collector [] 0)
    (List.range 3).forM fun n => Run.setDescriptor n (some (count + n))
    i.fork (i.shell shell ["-c", command])
  let (r, s) := run.run { s with world := { s.world with disk, runnable } }
  let written := fun (n : Nat) =>
    Octets.ofBytes (s.world.channels[count + n]?.getD .discard).collected
  { disk := s.world.disk, runnable := s.world.runnable
    writes := [(true, written 2), (false, written 1)]
    status := match r with
      | .ok status => status.number
      | .error _ => 1 }

/-- Does work that a utility has to do in the place of a process, and tells how it ended and which
    status it left. -/
def task {α : Type} (i : Interpreter) (t : Utility.Task α) : Run (Except ExitStatus α × Nat) := do
  let w ← Run.world
  let channel ← Run.readable 0
  let (r, work) := t.run ⟨w.disk, inputOf channel, [], 0, w.runnable, i.commandResult (← get)⟩
  Run.modifyWorld fun w => { w with disk := work.disk, runnable := work.runnable }
  match channel, work.input with
  | some (.source bytes _), .text rest _ => Run.setReadable 0 (bytes.drop (bytes.length - rest.length))
  | _, _ => pure ()
  work.writes.reverse.forM fun (isError, text) => do
    let _ ← Run.write (if isError then 2 else 1) (Octets.toBytes text)
  return (r, work.status)

/-- The words behind the mark at the start of a script that says what runs it. -/
def interpreterWords? (bytes : List UInt8) : Option (List String) :=
  match bytes with
  | 0x23 :: 0x21 :: rest =>
    let line := Octets.ofBytes (rest.takeWhile (· ≠ 0x0A))
    let isBlank := fun c => c = ' ' || c = '\t'
    let line := line.dropWhile isBlank
    let path := line.takeWhile (!isBlank ·)
    let word := ((line.drop path.length).dropWhile isBlank).reverse.dropWhile isBlank |>.reverse
    some (String.ofList path :: if word.isEmpty then [] else [String.ofList word])
  | _ => none

/-- Writes why a program that was to be started could not be, and gives the status for that. -/
def refuse (message : String) : IoFault → Run ExitStatus
  | fault => do
    let _ ← Run.print 2 (message ++ ": " ++ fault.reason ++ "\n")
    return .code (if fault = .notFound || fault = .notADirectory then 127 else 126)

/-- Runs the program that a path leads to. It is called by a name of its own. The fuel bounds how
    often one program starts another in its place. -/
def launch (i : Interpreter) : Nat → String → String → List String → Run (Except IoFault ExitStatus)
  | 0, _, _, _ => return .error (.other "Too many levels of symbolic links")
  | fuel + 1, path, name, arguments => do
    /- starts the program that the first of some words names -/
    let start := fun (words : List String) => do
      let program := words.head?.getD ""
      let arguments := words.drop 1
      if program.isEmpty then return .error .notFound
      else if program.toList.contains '/' then launch i fuel program program arguments
      else match ← Run.search ((← Run.process).value? "PATH").isNone program with
        | .found path => launch i fuel path program arguments
        | .denied => return .error .permissionDenied
        | .missing => return .error .notFound
    let call : Utility.Call := ⟨name, arguments, (← Run.process).environment⟩
    match (← Run.world).machineProgram? path with
    | some "[" | some "test" => .ok <$> i.fork (condition i name arguments)
    | some "xargs" =>
      match ← i.task (Utility.Batch.read call) with
      | (.error status, _) => return .ok status
      | (.ok batch, _) => .ok <$> runBatch start name batch
    | some short =>
      if shellNames.contains short then return .ok (← i.fork (i.shell name arguments))
      match Utility.launchings.lookup short, Utility.find? short with
      | some launching, _ =>
        match ← i.task (launching call) with
        | (.error status, _) => return .ok status
        | (.ok none, status) => return .ok (.code status)
        | (.ok (some l), _) => .ok <$> startUnder start name l
      | none, some u =>
        match ← i.task (u call) with
        | (.error status, _) => return .ok status
        | (.ok (), status) => return .ok (.code status)
      | none, none => return .error .notFound
    | none =>
      match (← Run.disk).lookup (Octets.decode path) with
      | .error fault => return .error fault
      | .ok (.directory _) => return .error .permissionDenied
      | .ok (.file bytes) =>
        if !(← Run.world).isRunnable path then return .error .permissionDenied
        match interpreterWords? bytes with
        | some (program :: words) => launch i fuel program program (words ++ path :: arguments)
        | _ => .ok <$> i.fork (i.shell "/bin/sh" (path :: arguments))
where
  /-- Finds a condition out in a process of its own. -/
  condition (i : Interpreter) (name : String) (arguments : List String) : Run Unit := do
    Run.modifyProcess fun p => { p with name, builtin := some name }
    Run.setStatus (← Builtin.test i ⟨false, true⟩ arguments)
  /-- Starts a program in an environment and a directory of its own. -/
  startUnder (start : List String → Run (Except IoFault ExitStatus)) (name : String)
      (l : Utility.Launch) : Run ExitStatus := do
    let before := (← Run.process).bindings
    let working := (← Run.disk).working
    let bindings : List Binding := (l.environment.map fun e => ⟨e.1, some e.2, true, false⟩).reverse
    Run.modifyProcess fun p => { p with bindings }
    Run.setDisk { (← Run.disk) with working := l.working }
    let r ← start l.words
    Run.setDisk { (← Run.disk) with working }
    Run.modifyProcess fun p => { p with bindings := before }
    match r with
    | .ok status => return status
    | .error fault => refuse (name ++ ": " ++ l.refusal) fault
  /-- Makes calls until one of them tells to stop. -/
  runBatch (start : List String → Run (Except IoFault ExitStatus)) (name : String)
      (batch : Utility.Batch) : Run ExitStatus := do
    let complain := fun (message : String) => do
      let _ ← Run.print 2 (name ++ ": " ++ message ++ "\n")
    let status ← (batch.calls.zipIdx 1).foldlM (fun (result : Bool × ExitStatus) (call, n) => do
      if result.1 then return result
      if n = batch.calls.length then batch.fault.forM complain
      if batch.isShown then
        let _ ← Run.print 2 (" ".intercalate (call.map Utility.shown) ++ "\n")
      let program := call.head?.getD ""
      match ← start call with
      | .error fault => return (true, ← refuse (name ++ ": " ++ program) fault)
      | .ok (.signal n) =>
        complain (program ++ ": terminated by signal " ++ decimal n)
        return (true, .code 125)
      | .ok (.code 255) =>
        complain (program ++ ": exited with status 255; aborting")
        return (true, .code 124)
      | .ok (.code 0) => return result
      | .ok _ => return (false, .code 123)) (false, .code 0)
    if batch.calls.isEmpty then batch.fault.forM complain
    return if batch.fault.isSome && !status.1 then .code 1 else status.2

end Interpreter

end PluginHost.Shell
