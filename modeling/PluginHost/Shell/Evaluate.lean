import PluginHost.Shell.Launch
/-!
Carrying out commands.
-/

namespace PluginHost.Shell

/-- How many calls of functions may be nested. -/
def maxCalls : Nat := 1000

/-- How many turns a loop takes at most. -/
def maxTurns : Nat := 0x40000000

namespace Interpreter

/-- Keeps the place of a command for messages. -/
def atLine (line : Nat) : Run Unit := Run.modifyProcess fun p => { p with line }

/-- Whether something is to be done on a signal or at the end of the process. -/
def hasTraps : Run Bool := return (← Run.process).traps.any fun t => !t.2.isEmpty

/-- Writes what is about to be done, to where errors went before. -/
def trace (i : Interpreter) (channel : Option Nat) (words : List String) : Run Unit := do
  if ← Run.isSet 'x' then
    let p ← Run.process
    let source := Source.ofText ((p.value? "PS4").getD "").toList (← Run.world).documents.size []
    let start ← match (Parse.double (Parse.list 1000 .optional) (source.rest.length + 2) .document
        .start).run source with
      | .ok (word, _) => Piece.plainText <$> i.expand ⟨true, false, false⟩ word
      | .error _ => pure ""
    let before ← Run.channelOf 2
    Run.setDescriptor 2 channel
    let _ ← Run.print 2 (start ++ " ".intercalate words ++ "\n")
    Run.setDescriptor 2 before

/-- Runs something with descriptors that lead elsewhere, and says whether that worked. -/
def redirected (i : Interpreter) (redirects : List Redirect) (body : Run Unit) : Run Bool := do
  let targets ← redirects.mapM i.target
  let before := (← Run.process).descriptors
  let run : Run Bool := do
    if ← Target.applyAll targets then
      body
      return true
    else return false
  run.andFinally fun s => { s with process := { s.process with descriptors := before } }

/-- Calls a function. -/
def call (i : Interpreter) (mode : Mode) (body : Command) (arguments : List String) : Run Unit := do
  if maxCalls ≤ (← Run.world).depth then
    Run.fail ("Maximum function recursion depth (" ++ decimal maxCalls ++ ") reached")
  let before ← Run.process
  Run.modifyProcess fun p => { p with
    arguments, optionPlace := ⟨1, 0⟩, loops := 0, isInFunction := true }
  Run.modifyWorld fun w => { w with depth := w.depth + 1 }
  let restore := fun (s : State) =>
    { s with
      process := { s.process with
        arguments := before.arguments, optionPlace := before.optionPlace, loops := before.loops,
        isInFunction := before.isInFunction },
      world := { s.world with depth := s.world.depth - 1 } }
  match ← (Run.outcome (i.execute ⟨mode.isTested, false⟩ body)).andFinally restore with
  | .ok () | .error .giveBack => return
  | .error stop => throw stop

/-- Runs a command of the shell itself. A mistake ends the script only if the command is special. -/
def builtin (i : Interpreter) (mode : Mode) (isSpecial : Bool) (name : String) (run : Builtin)
    (arguments : List String) : Run Unit := do
  let before := (← Run.process).builtin
  Run.modifyProcess fun p => { p with builtin := some name }
  let restore := fun (s : State) => { s with process := { s.process with builtin := before } }
  match ← (Run.outcome (run i mode arguments)).andFinally restore with
  | .ok status => Run.setStatus status
  | .error .fault => if isSpecial then throw .fault
  | .error stop => throw stop

/-- The status of a program that could not be started, with a message. -/
def notStarted (name : String) : IoFault → Run Nat
  | .notFound | .notADirectory => do
    Run.warn (name ++ ": not found")
    return 127
  | fault => do
    Run.warn (name ++ ": " ++ fault.reason)
    return 126

/-- Runs a program. If the process has nothing to do afterwards, it ends as the program does. -/
def program (i : Interpreter) (mode : Mode) (path name : String) (arguments : List String) :
    Run Unit := do
  let replaces ← if mode.isLast then do pure (!(← hasTraps)) else pure false
  -- what runs in the background goes on meanwhile
  if name = "sleep" && arguments.head?.any (·.toList.any fun c => '1' ≤ c && c ≤ '9') then
    Builtin.runJobs i
  match ← launch i 10 path name arguments with
  | .ok status =>
    if replaces then throw (.exit status)
    report status
    Run.setStatus status.number
  | .error fault => Run.setStatus (← notStarted name fault)

/-- Puts a program in place of the process. -/
def replace (i : Interpreter) (arguments : List String) : Run Unit := do
  match ← Builtin.withoutOptions arguments with
  | [] => Run.setStatus 0
  | name :: rest =>
    let r ← if name.toList.contains '/' then launch i 10 name name rest
      else match ← Run.search false name with
        | .found path => launch i 10 path name rest
        | .denied => pure (.error .permissionDenied)
        | .missing => pure (.error .notFound)
    match r with
    | .ok status => throw (.exit status)
    | .error fault =>
      Run.modifyProcess fun p => { p with builtin := some "exec" }
      throw (.exit (.code (← notStarted name fault)))

/-- The first word of a command behind those that say how it is looked for. -/
structure Calling where
  words : List String
  skipsFunctions : Bool
  isStandard : Bool

/-- Leaves out words that say how a command is looked for, unless they ask about it. The fuel bounds
    the words. -/
def calling : Nat → Calling → Calling
  | 0, c => c
  | fuel + 1, c =>
    match c.words with
    | "command" :: rest =>
      match options fuel c.isStandard rest with
      | some (isStandard, name :: rest) => calling fuel ⟨name :: rest, true, isStandard⟩
      | _ => { c with skipsFunctions := true }
    | _ => c
where
  options : Nat → Bool → List String → Option (Bool × List String)
    | 0, _, _ => none
    | _, isStandard, [] => some (isStandard, [])
    | fuel + 1, isStandard, word :: rest =>
      match word.toList with
      | ['-', '-'] => some (isStandard, rest)
      | '-' :: c :: letters =>
        if (c :: letters).all (· = 'p') then options fuel true rest else none
      | _ => some (isStandard, word :: rest)

/-- The fields of the words of a command. Words behind some names are dealt with like assignments, if
    they look like those. -/
def commandWords (i : Interpreter) : List String → List Word → Run (List String)
  | done, [] => return done
  | done, w :: rest => do
    let called := (calling (done.length + 1) ⟨done, false, false⟩).words
    let isDeclared := called.head?.any Builtin.takesAssignments && w.assignment?.isSome
    let new ← if isDeclared then
        match w.assignment? with
        | some (name, value) => do
          pure [name ++ "=" ++ String.ofList (← i.assignedText value)]
        | none => pure []
      else i.fields w
    commandWords i (done ++ new) rest

/-- What assignments in front of a command give variables. -/
def assignedValues (i : Interpreter) (use : String → String → Run Unit) :
    List Word → Run (List String)
  | [] => return []
  | w :: rest => do
    match w.assignment? with
    | none => assignedValues i use rest
    | some (name, value) =>
      let text := String.ofList (← i.assignedText value)
      use name text
      return (name ++ "=" ++ text) :: (← assignedValues i use rest)

/-- A command of words. -/
def simple (i : Interpreter) (mode : Mode) (assignments words : List Word)
    (redirects : List Redirect) : Run Unit := do
  Run.modifyProcess fun p => { p with wordStatus := none }
  let fields ← i.commandWords [] words
  let c := calling (fields.length + 1) ⟨fields, false, false⟩
  let name := c.words.head?.getD ""
  let isBare := fields.isEmpty
  let found ← if isBare || name = "" then pure (Found.missing false)
    else if (Builtin.find? name).isSome || name = "exec" ||
      (!c.skipsFunctions && ((← Run.process).functions.lookup name).isSome) then
      Run.find c.skipsFunctions c.isStandard name
    else pure (Found.missing false)
  let isSpecial := !c.skipsFunctions && Builtin.isSpecial name && !(found matches .function _)
  let replacesItself := found matches .exec
  let errors ← Run.channelOf 2
  let targets ← redirects.mapM i.target
  let before := (← Run.process).descriptors
  let keep := fun (name text : String) => do
    Run.declare name (some text) (replacesItself && 1 < c.words.length) false
  let keepForCommand := fun (name text : String) => do
    Run.keepBinding name
    Run.declare name (some text) true false
  let body : Run Unit := do
    if !(← Target.applyAll targets) then
      Run.setStatus 2
      if isSpecial then throw .fault
      return
    let assigned ← i.assignedValues (if isBare || isSpecial then keep else keepForCommand) assignments
    i.trace errors (assigned ++ fields)
    if isBare then Run.setStatus ((← Run.process).wordStatus.getD 0)
    else
      let found ← match found with
        | .missing _ => Run.find c.skipsFunctions c.isStandard name
        | found => pure found
      let arguments := c.words.drop 1
      match found with
      | .function body => i.call mode body arguments
      | .builtin run => i.builtin mode isSpecial name run arguments
      | .exec => i.replace arguments
      | .program path => i.program mode path name arguments
      | .missing isDenied =>
        Run.warn (name ++ if isDenied then ": Permission denied" else ": not found")
        Run.setStatus 127
  let framed := if isBare || isSpecial then body else Run.inFrame body
  framed.andFinally fun s =>
    if replacesItself then s else { s with process := { s.process with descriptors := before } }

/-- How a loop goes on after a part of a turn. -/
inductive Going where
  | on
  | next
  | finished
  | out (stop : Stop)

def goingOf : Except Stop Unit → Going
  | .ok () => .on
  | .error (.leave n) => if n ≤ 1 then .finished else .out (.leave (n - 1))
  | .error (.again n) => if n ≤ 1 then .next else .out (.again (n - 1))
  | .error stop => .out stop

/-- Runs turns as long as a condition says so. The fuel bounds the turns. `last` is the status of the
    turn before. -/
def turns (condition body : Run Unit) (isUntil : Bool) : Nat → Nat → Run Unit
  | 0, _ => throw (.exit (.signal 9))
  | fuel + 1, last => fun s =>
    match condition s with
    | (r, s) =>
      match goingOf r with
      | .out stop => (.error stop, s)
      | .finished => (Run.setStatus last) s
      | .next => turns condition body isUntil fuel last s
      | .on =>
        if (s.process.status = 0) = isUntil then (Run.setStatus last) s
        else
          match body s with
          | (r, s) =>
            match goingOf r with
            | .out stop => (.error stop, s)
            | .finished => (.ok (), s)
            | .next | .on => turns condition body isUntil fuel s.process.status s

/-- Runs a body for each of some values of a variable. -/
def turnsFor (name : String) (body : Run Unit) : List String → Run Unit
  | [] => return
  | value :: rest => fun s =>
    match (Run.assign name value *> body : Run Unit) s with
    | (r, s) =>
      match goingOf r with
      | .out stop => (.error stop, s)
      | .finished => (.ok (), s)
      | .next | .on => turnsFor name body rest s

/-- Runs something inside one more loop. -/
def inLoop (x : Run Unit) : Run Unit := do
  let loops := (← Run.process).loops
  Run.modifyProcess fun p => { p with loops := loops + 1 }
  x.andFinally fun s => { s with process := { s.process with loops } }

/-- Runs the first arm with a pattern that a text matches. -/
def choose (i : Interpreter) (mode : Mode) (text : List Char) :
    List (List Word × Command) → Run Unit
  | [] => Run.setStatus 0
  | (patterns, body) :: rest => do
    if ← patterns.anyM fun w => return Glob.isMatch (← i.pattern w) text then
      match body with
      | .nothing => Run.setStatus 0
      | body => i.execute mode body
    else choose i mode text rest

/-- Runs commands of which each reads what the one before it writes. -/
def stages (i : Interpreter) (isTested : Bool) : Option Nat → List Command → Run Unit
  | _, [] => return
  | input, c :: rest => do
    let collector ← if rest.isEmpty then pure none
      else some <$> Run.addChannel (.collector [] 0)
    let status ← i.fork do
      if let some index := input then Run.setDescriptor 0 (some index)
      if let some index := collector then Run.setDescriptor 1 (some index)
      i.execute ⟨isTested, true⟩ c
    report status
    match collector with
    | none => Run.setStatus status.number
    | some index =>
      let bytes := ((← Run.world).channels[index]?.getD .discard).collected
      Run.modifyWorld fun w => { w with channels := w.channels.set! index (.source bytes false) }
      stages i isTested (some index) rest

/-- Starts a command in the background. -/
def background (body : Command) : Run Unit := do
  let id ← Run.freshId
  let input ← Run.addChannel (.source [] false)
  let p ← Run.process
  let child := { p with
    id, ancestors := p.id :: p.ancestors, traps := p.traps.filter (·.2.isEmpty), savedStatus := none,
    descriptors := (0, input) :: p.descriptors.filter (·.1 ≠ 0) }
  let working := (← Run.disk).working
  Run.modifyWorld fun w => { w with jobs := w.jobs ++ [⟨id, p.id, child, working, body, none, none⟩] }
  Run.modifyProcess fun p => { p with lastJob := some id, status := 0 }

/-- Runs a command, and tells whether its failure may end the script. -/
def run (i : Interpreter) (mode : Mode) : Command → Run Bool
  | .nothing => return false
  | .simple line assignments words redirects => do
    atLine line
    i.simple mode assignments words redirects
    return true
  | .redirected line body redirects => do
    atLine line
    if !(← i.redirected redirects (i.execute ⟨mode.isTested, false⟩ body)) then Run.setStatus 2
    return false
  | .background line body => do
    atLine line
    background body
    return true
  | .sequence commands => do
    inSequence i mode commands
    return false
  | .both first next => do
    i.execute ⟨true, false⟩ first
    if (← Run.process).status = 0 then i.execute mode next
    return false
  | .either first next => do
    i.execute ⟨true, false⟩ first
    if (← Run.process).status ≠ 0 then i.execute mode next
    return false
  | .negated body => do
    i.execute ⟨true, false⟩ body
    Run.modifyProcess fun p => { p with status := if p.status = 0 then 1 else 0 }
    return false
  | .pipeline commands => do
    i.stages mode.isTested none commands
    return true
  | .branch condition yes no => do
    i.execute ⟨true, false⟩ condition
    if (← Run.process).status = 0 then i.execute mode yes
    else match no with
      | .nothing => Run.setStatus 0
      | no => i.execute mode no
    return false
  | .loop isUntil condition body => do
    inLoop (turns (i.execute ⟨true, false⟩ condition) (i.execute ⟨mode.isTested, false⟩ body) isUntil
      maxTurns 0)
    return false
  | .each line name words body => do
    atLine line
    let values ← words.mapM i.fields
    Run.setStatus 0
    inLoop (turnsFor name (i.execute ⟨mode.isTested, false⟩ body) values.flatten)
    return false
  | .choose line subject arms => do
    atLine line
    let text ← i.text subject
    i.choose mode text arms
    return false
  | .subshell line body redirects => do
    atLine line
    let targets ← redirects.mapM i.target
    let status ← i.fork do
      if ← Target.applyAll targets then i.execute ⟨mode.isTested, true⟩ body
      else
        Run.setStatus 2
        throw .fault
    let replaces ← if mode.isLast then do pure (!(← hasTraps)) else pure false
    if replaces then throw (.exit status)
    report status
    Run.setStatus status.number
    return true
  | .define _ name body => do
    Run.modifyProcess fun p => { p with
      functions := (name, body) :: p.functions.filter (·.1 ≠ name), status := 0 }
    return false
where
  inSequence (i : Interpreter) (mode : Mode) : List Command → Run Unit
    | [] => return
    | [c] => i.execute mode c
    | c :: rest => do
      i.execute ⟨mode.isTested, false⟩ c
      inSequence i mode rest

/-- Runs a command unless commands are only read, acts on signals, and ends the script if the command
    failed and that is asked for. -/
def executeWith (i : Interpreter) (mode : Mode) (c : Command) : Run Unit := do
  if ← Run.isSet 'n' then return
  i.poll
  let counts ← i.run mode c
  i.poll
  let p ← Run.process
  if counts && !mode.isTested && p.status ≠ 0 && p.options.contains 'e' then
    throw (.exit (.code p.status))

/-- The interpreter for commands and words that nest up to some depth. What nests deeper breaks the
    process down. -/
def within : Nat → Interpreter
  | 0 => ⟨fun _ _ => throw (.exit (.signal 11)), fun _ _ => throw (.exit (.signal 11))⟩
  | depth + 1 =>
    ⟨fun mode c => (within depth).executeWith mode c, fun place w => (within depth).parts place w []⟩

/-- How deep commands and words may nest. -/
def maxDepth : Nat := 20000

def standard : Interpreter := within maxDepth

end Interpreter

end PluginHost.Shell
