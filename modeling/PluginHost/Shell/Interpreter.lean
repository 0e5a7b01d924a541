import PluginHost.Shell.Parameter
import PluginHost.Shell.Parser
/-!
Processes of a shell: scripts that they carry out, copies of them that run on their own, and how they
end.

Commands and words nest in one another. What deals with those inside is handed down as an interpreter,
so that every kind of command and word can be described on its own.
-/

namespace PluginHost.Shell

/-- Where a word stands. -/
structure Placing where
  inQuotes : Bool
  /-- Whether fields are made of it. -/
  isCut : Bool
  /-- Whether it stands in place of a value, so that it is cut like one. -/
  inBraces : Bool
deriving DecidableEq, Inhabited

/-- What is done with the commands and words inside others. -/
structure Interpreter where
  execute : Mode → Command → Run Unit
  expand : Placing → Word → Run (List Piece)

namespace Interpreter

/-- Carries out the rest of a script. The fuel bounds its lines. -/
def scriptLines (i : Interpreter) (mode : Mode) : Nat → Source → Run Unit
  | 0, _ => return
  | fuel + 1, source => do
    match Parse.nextLine.run { source with aliases := (← Run.process).aliases } with
    | .error fault =>
      Run.modifyProcess fun p => { p with line := fault.line }
      Run.fail ("Syntax error: " ++ fault.message)
    | .ok (none, _) => return
    | .ok (some (command, isOver), source) =>
      Run.modifyWorld fun w => { w with
        documents := source.documents.reverse.foldl (fun ds d => ds.push d.2) w.documents }
      if !(← Run.process).options.contains 'n' then
        i.execute { mode with isLast := mode.isLast && isOver } command
      let nextDocument := (← Run.world).documents.size
      scriptLines i mode fuel { source with documents := [], nextDocument }

/-- Carries out a script. -/
def script (i : Interpreter) (mode : Mode) (text : List Char) : Run Unit := do
  let source := Source.ofText text (← Run.world).documents.size (← Run.process).aliases
  i.scriptLines mode (text.length + 2) source

/-- Carries out what is to be done on a signal. Afterwards the status is what it was. -/
def runTrap (i : Interpreter) (action : String) : Run Unit := do
  let p ← Run.process
  let status := p.savedStatus.getD p.status
  Run.modifyProcess fun p => { p with savedStatus := some status }
  i.script ⟨false, false⟩ action.toList
  Run.modifyProcess fun p' => { p' with status, savedStatus := p.savedStatus }

/-- Acts on a signal. -/
def onSignal (i : Interpreter) (signal : Nat) : Run Unit := do
  let traps := (← Run.process).traps
  match if signal = 9 then none else traps.lookup signal with
  | some "" => return
  | some action => i.runTrap action
  | none =>
    if Signal.isHarmless signal || signal ∈ Signal.stopping then return
    else throw (.exit (.signal signal))

/-- Acts on the signals that the process has got. -/
def poll (i : Interpreter) : Run Unit := do
  if (← Run.world).signals.isEmpty then return
  let id := (← Run.process).id
  let got := ((← Run.world).signals.filter (·.1 = id)).map (·.2)
  Run.modifyWorld fun w => { w with signals := w.signals.filter (·.1 ≠ id) }
  (got.mergeSort (· ≤ ·)).forM i.onSignal

/-- How a process ends whose commands ended in some way. What is to be done at its end is done. -/
def finish (i : Interpreter) (r : Except Stop Unit) : Run ExitStatus := do
  let status := match r with
    | .error (.exit status) => status
    | _ => .code 0
  match r, status with
  | .error (.exit _), .signal _ => return status
  | .error (.exit _), .code n => Run.setStatus n
  | _, _ => pure ()
  let n := (← Run.process).status
  match (← Run.process).traps.lookup 0 with
  | none | some "" => return .code (n % 256)
  | some action =>
    Run.modifyProcess fun p => { p with traps := p.traps.filter (·.1 ≠ 0), savedStatus := some n }
    match ← Run.outcome (i.script ⟨false, false⟩ action.toList) with
    | .error (.exit (.code n)) => return .code (n % 256)
    | .error (.exit status) => return status
    | .error .fault => return .code (← Run.process).status
    | _ => return .code (n % 256)

/-- Runs something in a process of its own, which has a copy of all that this one has. -/
def fork (i : Interpreter) (body : Run Unit) : Run ExitStatus := do
  let id ← Run.freshId
  let p ← Run.process
  let working := (← Run.disk).working
  Run.modifyProcess fun p => { p with
    id, ancestors := p.id :: p.ancestors, traps := p.traps.filter (·.2.isEmpty), savedStatus := none }
  let status ← i.finish (← Run.outcome body)
  modify fun s => ⟨p, { s.world with disk := { s.world.disk with working } }⟩
  return status

/-- Tells of a process that was waited for and ended by a signal. -/
def report (status : ExitStatus) : Run Unit := do
  match status with
  | .signal n =>
    if n ≠ 2 && n ≠ 13 then
      let _ ← Run.print 2 (Signal.description n ++ "\n")
  | .code _ => return

/-- What a command writes, without the line ends at its end. -/
def output (i : Interpreter) (body : Command) : Run (List Char) := do
  let index ← Run.addChannel (.collector [] 0)
  let status ← i.fork do
    Run.setDescriptor 1 (some index)
    i.execute ⟨false, true⟩ body
  report status
  Run.modifyProcess fun p => { p with wordStatus := some status.number }
  let bytes := ((← Run.world).channels[index]?.getD .discard).collected
  Run.modifyWorld fun w => { w with channels := w.channels.set! index .discard }
  let text := Octets.ofBytes (bytes.filter (· ≠ 0))
  return (text.reverse.dropWhile (· = '\n')).reverse

end Interpreter

end PluginHost.Shell
