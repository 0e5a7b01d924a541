import PluginHost.Shell.Interpreter
import PluginHost.Text.Numeral
/-!
Commands that belong to the shell itself. First what they have in common: options, numbers and quoted output.
Then those that change the course of a script: loops, functions, scripts inside scripts, signals and commands in
the background.
-/

namespace PluginHost.Shell

/-- A command of the shell itself: what it does with its arguments, and its status. -/
abbrev Builtin := Interpreter → Mode → List String → Run Nat

namespace Builtin

/-- Cuts the options off some arguments. A letter with a colon behind it takes a text. The fuel bounds
    the options. -/
def optionsWithin (letters : List Char) :
    Nat → List String → Run (List (Char × String) × List String)
  | 0, arguments => return ([], arguments)
  | fuel + 1, arguments => do
    match arguments with
    | [] => return ([], [])
    | "--" :: rest => return ([], rest)
    | word :: rest =>
      match word.toList with
      | '-' :: c :: more =>
        match letters.dropWhile (· ≠ c) with
        | _ :: ':' :: _ =>
          match more, rest with
          | [], [] => Run.fail ("No arg for -" ++ String.singleton c ++ " option")
          | [], text :: rest =>
            let (found, left) ← optionsWithin letters fuel rest
            return ((c, text) :: found, left)
          | more, rest =>
            let (found, left) ← optionsWithin letters fuel rest
            return ((c, String.ofList more) :: found, left)
        | _ :: _ =>
          let rest := if more.isEmpty then rest else String.ofList ('-' :: more) :: rest
          let (found, left) ← optionsWithin letters fuel rest
          return ((c, "") :: found, left)
        | [] => Run.fail ("Illegal option -" ++ String.singleton c)
      | _ => return ([], arguments)

/-- The options of some arguments, and the arguments behind them. -/
def options (letters : String) (arguments : List String) :
    Run (List (Char × String) × List String) :=
  optionsWithin letters.toList (" ".intercalate arguments).length.succ arguments

/-- Leaves out the mark at the end of options. There are none. -/
def withoutOptions (arguments : List String) : Run (List String) := do
  return (← options "" arguments).2

/-- A number that is not negative. -/
def number (text : String) : Run Nat := do
  match Text.takeSignedDecimal text.toList with
  | some (n, rest) =>
    if rest.all Text.isSpace && 0 ≤ n && n ≤ 0x7FFFFFFF then return n.toNat
    else Run.fail ("Illegal number: " ++ text)
  | none => Run.fail ("Illegal number: " ++ text)

/-- A text between single quotes, as the shell reads it. -/
def quoted (text : String) : String :=
  let pieces := text.toList.splitOnP (· = '\'')
  "'" ++ "'\"'\"'".intercalate (pieces.map String.ofList) ++ "'"

/-- Writes to the output. A closed output makes the command fail. -/
def put (text : String) : Run Nat := do
  if text.isEmpty then return 0
  if ← Run.print 1 text then return 0
  else
    let name := ((← Run.process).builtin).getD ""
    Run.warn (name ++ ": I/O error")
    return 1

/-- Writes lines. -/
def putLines (lines : List String) : Run Nat := put (String.join (lines.map (· ++ "\n")))

end Builtin

/-! Commands that change the course of a script. -/

namespace Builtin

/-- How many loops a command is about; there may be fewer. -/
def loopCount (arguments : List String) : Run Nat := do
  let n ← match arguments with
    | [] => pure 1
    | text :: _ =>
      let n ← number text
      if n = 0 then Run.fail ("Illegal number: " ++ text)
      pure n
  return min n (← Run.process).loops

def breakLoop : Builtin := fun _ _ arguments => do
  let n ← loopCount arguments
  if n = 0 then return 0
  Run.setStatus 0
  throw (.leave n)

def continueLoop : Builtin := fun _ _ arguments => do
  let n ← loopCount arguments
  if n = 0 then return 0
  Run.setStatus 0
  throw (.again n)

def giveBack : Builtin := fun _ _ arguments => do
  match arguments with
  | [] => Run.modifyProcess fun p => { p with status := p.savedStatus.getD p.status }
  | text :: _ => Run.setStatus (← number text)
  throw .giveBack

def exit : Builtin := fun _ _ arguments => do
  match arguments with
  | [] =>
    let p ← Run.process
    throw (.exit (.code (p.savedStatus.getD p.status)))
  | text :: _ => throw (.exit (.code (← number text)))

def eval : Builtin := fun i mode arguments => do
  let text := " ".intercalate arguments
  Run.modifyProcess fun p => { p with status := 0 }
  i.script ⟨mode.isTested, false⟩ text.toList
  return (← Run.process).status

/-- The file that a name without slashes leads to, in the directories that are searched. -/
def searched? (name : String) : Run (Option String) := do
  let disk ← Run.disk
  let directories := (((← Run.process).value? "PATH").getD "").toList.splitOnP (· = ':')
  return directories.findSome? fun d =>
    let path := if d.isEmpty then name else String.ofList d ++ "/" ++ name
    if disk.isFile (Octets.decode path) then some path else none

/-- Carries out the script in a file. -/
def dot : Builtin := fun i mode arguments => do
  match ← withoutOptions arguments with
  | [] => return 0
  | name :: _ =>
    let path ← if name.toList.contains '/' then pure name
      else match ← searched? name with
        | some path => pure path
        | none => Run.fail (name ++ ": not found")
    match (← Run.disk).read (Octets.decode path) with
    | .error .isADirectory => return 0
    | .error fault =>
      let reason := if fault = .notFound || fault = .notADirectory then "No such file"
        else fault.reason
      Run.fail ("cannot open " ++ path ++ ": " ++ reason)
    | .ok bytes =>
      let before ← Run.process
      Run.modifyProcess fun p => { p with
        builtin := some path, status := 0 }
      let restore := fun (s : State) => { s with process := { s.process with
        builtin := before.builtin } }
      match ← (Run.outcome (i.script ⟨mode.isTested, false⟩ (Octets.ofBytes bytes))).andFinally
        restore with
      | .ok () | .error .giveBack => return (← Run.process).status
      | .error stop => throw stop

/-- The name of a signal; those without one are numbered from the ends of their range. -/
def signalName (n : Nat) : String :=
  if n = 0 then "EXIT"
  else
    match Signal.name? n with
    | some name => name
    | none =>
      if n = 34 then "RTMIN"
      else if 34 < n && n < 50 then "RTMIN+" ++ decimal (n - 34)
      else if n = 64 then "RTMAX"
      else if 50 ≤ n && n < 64 then "RTMAX-" ++ decimal (64 - n)
      else decimal n

/-- The signals in the order of their numbers, as the shell writes them. -/
def signalNames : List String := (List.range' 1 Signal.last).map fun n =>
  if n = 16 then decimal n else signalName n

/-- The signal that a number or a name stands for. -/
def signal? (first : Nat) (text : String) : Option Nat :=
  match Text.digits? text.toList with
  | some n => if n ≤ Signal.last then some n else none
  | none =>
    let name := String.ofList (text.toList.map Char.toUpper)
    (List.range' first (Signal.last + 1 - first)).find? fun n => n ≠ 16 && signalName n = name

def trap : Builtin := fun _ _ arguments => do
  match ← withoutOptions arguments with
  | [] =>
    let traps := (← Run.process).traps.mergeSort fun a b => a.1 ≤ b.1
    putLines (traps.map fun t => "trap -- " ++ quoted t.2 ++ " " ++ signalName t.1)
  | first :: rest =>
    let resets := rest.isEmpty || (Text.digits? first.toList).any (· ≤ Signal.last)
    let action := if resets || first = "-" then none else some first
    let names := if resets then first :: rest else rest
    names.foldlM (fun status name => do
      if status ≠ 0 then return status
      match signal? 0 name with
      | some n =>
        Run.modifyProcess fun p =>
          let others := p.traps.filter (·.1 ≠ n)
          { p with traps := match action with
            | some text => (n, text) :: others
            | none => others }
        return 0
      | none =>
        let _ ← Run.print 2 ("trap: " ++ name ++ ": bad trap\n")
        return 1) 0

/-- Sends a signal to a process, and tells whether there is one. -/
def send (i : Interpreter) (signal id : Nat) : Run Bool := do
  let p ← Run.process
  let w ← Run.world
  if id = p.id then
    if signal = 0 then return true
    if (p.traps.lookup signal).isNone || signal = 9 then i.onSignal signal
    else Run.modifyWorld fun w => { w with signals := (id, signal) :: w.signals }
    return true
  else if p.ancestors.contains id then
    if signal ≠ 0 then
      Run.modifyWorld fun w => { w with signals := (id, signal) :: w.signals }
    return true
  else if w.jobs.any (·.id = id) then
    if signal ≠ 0 then
      Run.modifyWorld fun w => { w with jobs := w.jobs.map fun j =>
        if j.id = id && j.signal.isNone then { j with signal := some signal } else j }
    return true
  else return false

def killUsage : String :=
  "Usage: kill [-s sigspec | -signum | -sigspec] [pid | job]... or\nkill -l [exitstatus]"

/-- The process that a word of `kill` names. -/
def processOf (word : String) : Run Nat := do
  match word.toList with
  | '%' :: _ => Run.fail ("No such job: " ++ word)
  | '-' :: rest => number (String.ofList rest)
  | _ => number word

/-- Sends a signal to the processes that words name. -/
def sendAll (i : Interpreter) (signal : Nat) (words : List String) : Run Nat :=
  words.foldlM (fun status word => do
    if ← send i signal (← processOf word) then return status
    else
      Run.warn "No such process\n"
      return 1) 0

def kill : Builtin := fun i _ arguments => do
  match arguments with
  | [] => Run.fail killUsage
  | first :: rest =>
    let isOption := first.toList.head? = some '-'
    match if isOption then signal? 1 (String.ofList (first.toList.drop 1)) else none with
    | some n =>
      if rest.isEmpty then Run.fail killUsage else sendAll i n rest
    | none =>
      let (found, words) ← if isOption then options "ls:" arguments else pure ([], arguments)
      let signal ← found.foldlM (fun (n : Option Nat) (f : Char × String) => do
        if f.1 = 's' then
          match signal? 1 f.2 with
          | some n => return some n
          | none => Run.fail ("invalid signal number or name: " ++ f.2)
        else return n) none
      if found.any (·.1 = 'l') then
        match words with
        | [] => putLines ("0" :: signalNames)
        | word :: _ =>
          let n ← number word
          let n := if 128 < n then n - 128 else n
          if 0 < n && n ≤ Signal.last then putLines [signalNames[n - 1]?.getD ""]
          else Run.fail ("invalid signal number or exit status: " ++ word)
      else if words.isEmpty then Run.fail killUsage
      else sendAll i (signal.getD 15) words

/-- Carries out a command in the background that is still to be carried out, and gives its status. -/
def runJob (i : Interpreter) (job : Job) : Run ExitStatus := do
  match job.status with
  | some status => return status
  | none =>
    let p ← Run.process
    let working := (← Run.disk).working
    let start := fun (w : World) => { w with
      disk := { w.disk with working := job.working },
      jobs := w.jobs.filter (·.id ≠ job.id),
      signals := match job.signal with
        | some n => (job.id, n) :: w.signals
        | none => w.signals }
    modify fun s => ⟨job.process, start s.world⟩
    let status ← i.finish (← Run.outcome (do
      i.poll
      i.execute ⟨false, true⟩ job.body))
    modify fun s => ⟨p, { s.world with
      disk := { s.world.disk with working },
      jobs := s.world.jobs ++ [{ job with status := some status }] }⟩
    return status

/-- Carries out the commands in the background that this process has started. -/
def runJobs (i : Interpreter) : Run Unit := do
  let id := (← Run.process).id
  ((← Run.world).jobs.filter fun j => j.owner = id && j.status.isNone).forM fun j => do
    let _ ← runJob i j

def wait : Builtin := fun i _ arguments => do
  let words ← withoutOptions arguments
  if words.isEmpty then
    runJobs i
    return 0
  words.foldlM (fun _ word => do
    if word.toList.head? = some '%' then Run.fail ("No such job: " ++ word)
    let n ← number word
    let id := (← Run.process).id
    match (← Run.world).jobs.find? fun j => j.id = n && j.owner = id with
    | some job =>
      let status ← runJob i job
      if job.status.isNone then Interpreter.report status
      return status.number
    | none => return 127) 0

def jobs : Builtin := fun _ _ _ => return 0

end Builtin

end PluginHost.Shell
