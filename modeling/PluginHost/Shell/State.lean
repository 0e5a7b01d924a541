import PluginHost.Disk.Disk
import PluginHost.Program.Program
import PluginHost.Shell.Syntax
import PluginHost.Text.Utf8
/-!
The state of a running shell.

All texts are octets: their characters stand for bytes. A process is what a subshell has a copy of;
the world is what it shares.
-/

namespace PluginHost.Shell

/-! Channels: what descriptors lead to. Descriptors that lead to one channel share its place. -/

inductive Channel where
  /-- Something that is read; this is left of it. What lies in a file can be read again. -/
  | source (rest : List UInt8) (isFile : Bool)
  /-- One byte again and again. -/
  | endless (byte : UInt8)
  /-- A directory, which cannot be read. -/
  | directory
  /-- A file that is written from a position on, or at its end. -/
  | file (place : List String) (position : Nat) (isAppended : Bool)
  /-- Something that is collected, the newest piece first, and how long it is. -/
  | collector (pieces : List (List UInt8)) (size : Nat)
  | discard
deriving Inhabited

namespace Channel

/-- What a collector holds. -/
def collected : Channel → List UInt8
  | collector pieces _ => pieces.reverse.flatten
  | _ => []

/-- What can be read at once. Of what has no end this is a part that is long enough for programs that
    read all there is. -/
def readable : Channel → List UInt8
  | source rest _ => rest
  | endless byte => List.replicate 0x20000 byte
  | _ => []

/-- The file of some bytes with others written over it from a position on. -/
def overwritten (old new : List UInt8) (position : Nat) : List UInt8 :=
  let kept := old.take position
  kept ++ List.replicate (position - kept.length) 0 ++ new ++ old.drop (position + new.length)

/-- Writes to a channel. -/
def write (disk : Disk) (bytes : List UInt8) : Channel → Disk × Channel
  | collector pieces size => (disk, collector (bytes :: pieces) (size + bytes.length))
  | file place position isAppended =>
    match disk.entryAt? place with
    | some (.file old) =>
      let position := if isAppended then old.length else position
      let new := if position = old.length then old ++ bytes else overwritten old bytes position
      (disk.modify (Entry.put (.file new) place), file place (position + bytes.length) isAppended)
    | _ => (disk, file place (position + bytes.length) isAppended)
  | c => (disk, c)

end Channel

/-! Processes and the world. -/

structure Binding where
  name : String
  /-- A parameter may have attributes without having a value. -/
  value : Option String
  isExported : Bool
  isFixed : Bool
deriving DecidableEq, Inhabited

/-- Where `getopts` has got to: which argument, and how many letters of it. -/
structure OptionPlace where
  argument : Nat
  letters : Nat
deriving DecidableEq, Inhabited

structure Process where
  /-- The number that the script knows its process by. A subshell keeps that of its shell. -/
  shellId : Nat
  id : Nat
  /-- The processes that this one is a copy of or was started by, the nearest first. -/
  ancestors : List Nat
  /-- What messages start with. -/
  name : String
  arguments : List String
  bindings : List Binding
  functions : List (String × Command)
  aliases : List (String × String)
  options : List Char
  /-- What is done on signals; nothing is done if it is empty. The end of the process counts as signal
      zero. -/
  traps : List (Nat × String)
  descriptors : List (Nat × Nat)
  line : Nat
  /-- The builtin that is running, for messages. -/
  builtin : Option String
  loops : Nat
  /-- The bindings that functions keep for their callers, the innermost first. -/
  frames : List (List (String × Option Binding))
  /-- The options that these functions keep, if they do. -/
  keptOptions : List (Option (List Char))
  isInFunction : Bool
  status : Nat
  /-- The status of the last command that was run for a word, if there was one. -/
  wordStatus : Option Nat
  /-- The status before the action on a signal or on the end that is being carried out. -/
  savedStatus : Option Nat
  optionPlace : OptionPlace
  /-- The programs that were found by their names. -/
  found : List String
  lastJob : Option Nat
  mask : Nat
deriving Inhabited

/-- Commands that run in the background. They are carried out when they are waited for. -/
structure Job where
  id : Nat
  /-- The process that started it. -/
  owner : Nat
  process : Process
  working : List String
  body : Command
  /-- The signal that it got before it was carried out. -/
  signal : Option Nat
  /-- How it ended, once it has. -/
  status : Option ExitStatus
deriving Inhabited

structure World where
  disk : Disk
  channels : Array Channel
  /-- Signals that have not been acted on: the process and the signal. -/
  signals : List (Nat × Nat)
  jobs : List Job
  nextId : Nat
  documents : Array Word
  /-- Files that may be run. -/
  runnable : List (List String)
  /-- How many calls of functions are nested. -/
  depth : Nat
deriving Inhabited

/-- Whether a path leads to a file that may be run. -/
def World.isRunnable (w : World) (path : String) : Bool :=
  match w.disk.place (Octets.decode path) with
  | .ok place => w.runnable.contains place
  | .error _ => false

structure State where
  process : Process
  world : World
deriving Inhabited

/-- Why the rest of a script is left out. -/
inductive Stop where
  /-- The process ends. -/
  | exit (status : ExitStatus)
  /-- An error: the process ends unless a command may fail in this way. -/
  | fault
  /-- Out of so many loops. -/
  | leave (levels : Nat)
  /-- On with the next turn of a loop so many levels out. -/
  | again (levels : Nat)
  | giveBack
deriving DecidableEq, Inhabited

/-- A step of a running shell: it changes the state, and may leave out what follows. -/
abbrev Run (α : Type) := ExceptT Stop (StateM State) α

/-- How a command is run. -/
structure Mode where
  /-- Whether the command may fail although failures end the script. -/
  isTested : Bool
  /-- Whether the process has nothing to do after it. -/
  isLast : Bool
deriving DecidableEq, Inhabited

def decimal (n : Nat) : String := String.ofList (Text.ofNat n)

namespace Run

def process : Run Process := return (← get).process

def world : Run World := return (← get).world

def modifyProcess (f : Process → Process) : Run Unit :=
  modify fun s => { s with process := f s.process }

def modifyWorld (f : World → World) : Run Unit := modify fun s => { s with world := f s.world }

def disk : Run Disk := return (← world).disk

def setDisk (disk : Disk) : Run Unit := modifyWorld fun w => { w with disk }

def setStatus (status : Nat) : Run Unit := modifyProcess fun p => { p with status }

def isSet (option : Char) : Run Bool := return (← process).options.contains option

/-- Runs something and changes the state afterwards, however that ended. -/
def andFinally {α : Type} (x : Run α) (f : State → State) : Run α :=
  fun s => match x s with
    | (r, s) => (r, f s)

/-- Runs something and gives how it ended. -/
def outcome {α : Type} (x : Run α) : Run (Except Stop α) :=
  fun s => match x s with
    | (r, s) => (.ok r, s)

/-- A new number for a process. -/
def freshId : Run Nat := do
  let id := (← world).nextId
  modifyWorld fun w => { w with nextId := id + 1 }
  return id

def addChannel (c : Channel) : Run Nat := do
  let index := (← world).channels.size
  modifyWorld fun w => { w with channels := w.channels.push c }
  return index

def channelOf (descriptor : Nat) : Run (Option Nat) :=
  return (← process).descriptors.lookup descriptor

def setDescriptor (descriptor : Nat) (index : Option Nat) : Run Unit :=
  modifyProcess fun p =>
    let others := p.descriptors.filter (·.1 ≠ descriptor)
    { p with descriptors := match index with
      | some index => (descriptor, index) :: others
      | none => others }

/-- Writes to a descriptor. It fails if the descriptor is closed or only read from. -/
def write (descriptor : Nat) (bytes : List UInt8) : Run Bool := do
  match ← channelOf descriptor with
  | none => return false
  | some index =>
    modifyWorld fun w =>
      let (disk, channel) := (w.channels[index]?.getD .discard).write w.disk bytes
      { w with disk, channels := w.channels.set! index channel }
    return true

/-- Writes a text of octets to a descriptor. -/
def print (descriptor : Nat) (text : String) : Run Bool :=
  write descriptor (Octets.toBytes text.toList)

/-- Writes a message of the shell itself. -/
def warn (message : String) : Run Unit := do
  let p ← process
  let builtin := match p.builtin with
    | some name => name ++ ": "
    | none => ""
  let _ ← print 2 (p.name ++ ": " ++ decimal p.line ++ ": " ++ builtin ++ message ++ "\n")

/-- Ends what is running with an error. -/
def fail {α : Type} (message : String) : Run α := do
  warn message
  setStatus 2
  throw .fault

/-- What can be read from a descriptor. -/
def readable (descriptor : Nat) : Run (Option Channel) := do
  match ← channelOf descriptor with
  | none => return none
  | some index => return (← world).channels[index]?

/-- Leaves only some bytes to be read from a descriptor. -/
def setReadable (descriptor : Nat) (rest : List UInt8) : Run Unit := do
  match ← channelOf descriptor with
  | none => return
  | some index =>
    modifyWorld fun w => { w with
      channels := w.channels.modify index fun c => match c with
        | .source _ isFile => .source rest isFile
        | c => c }

end Run

end PluginHost.Shell
