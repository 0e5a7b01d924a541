import PluginHost.Text.Cut
import PluginHost.Text.Numeral
/-!
The command line: its options and its commands.

A command line is read level by level: options of the program, then the name of a command, then the
command's own options and arguments. What starts with a hyphen is an option, unless it is a hyphen
alone or stands after `--`; it is never the value of an option.
-/

namespace PluginHost.Cli

/-- An option that a level knows. -/
structure OptionKind where
  name : String
  letter : Option Char
  takesValue : Bool
  /-- Whether it may be given more than once. -/
  isRepeatable : Bool
deriving DecidableEq, Inhabited

/-- The options and arguments that were given at one level. -/
structure Level where
  /-- Names with values, which are empty for options that take none. -/
  options : List (String × String)
  arguments : List String
  /-- The name that ends a level of commands, with all that follows it. -/
  command : Option (String × List String)
deriving DecidableEq, Inhabited

namespace Level

def empty : Level := ⟨[], [], none⟩

def addOptions (found : List (String × String)) (l : Level) : Level :=
  { l with options := found ++ l.options }

def addArgument (argument : String) (l : Level) : Level :=
  { l with arguments := argument :: l.arguments }

/-- All values of an option, in order. -/
def values (l : Level) (name : String) : List String :=
  (l.options.filter fun o => o.1 = name).map (·.2)

def value? (l : Level) (name : String) : Option String := (l.values name).head?

def has (l : Level) (name : String) : Bool := !(l.values name).isEmpty

/-- Whether no option is given more often than it may be. -/
def isOrderly (kinds : List OptionKind) (l : Level) : Bool :=
  kinds.all fun k => k.isRepeatable || (l.values k.name).length ≤ 1

end Level

/-- Whether an argument is an option rather than a value. -/
def looksLikeOption (argument : String) : Bool :=
  argument.toList.head? = some '-' && argument ≠ "-"

/-- What one argument with options comes to: the options in it, and the one that has its value in
    the next argument. -/
structure Cluster where
  options : List (String × String)
  pending : Option String

/-- The options behind one hyphen. The value of one that takes a value is what follows it there, an
    equals sign in between left out. -/
def shortOptions? (kinds : List OptionKind) : List Char → Option Cluster
  | [] => some ⟨[], none⟩
  | letter :: rest =>
    match kinds.find? fun k => k.letter = some letter with
    | none => none
    | some k =>
      if k.takesValue then
        match rest with
        | [] => some ⟨[], some k.name⟩
        | '=' :: value => some ⟨[(k.name, String.ofList value)], none⟩
        | value => some ⟨[(k.name, String.ofList value)], none⟩
      else (shortOptions? kinds rest).map fun c => { c with options := (k.name, "") :: c.options }

/-- The option behind two hyphens. -/
def longOption? (kinds : List OptionKind) (text : List Char) : Option Cluster :=
  let (name, value) := match Text.cutFirst? ['='] text with
    | some (name, value) => (name, some (String.ofList value))
    | none => (text, none)
  match kinds.find? fun k => k.name = String.ofList name, value with
  | none, _ => none
  | some k, some value => if k.takesValue then some ⟨[(k.name, value)], none⟩ else none
  | some k, none =>
    some (if k.takesValue then ⟨[], some k.name⟩ else ⟨[(k.name, "")], none⟩)

def options? (kinds : List OptionKind) (argument : String) : Option Cluster :=
  match argument.toList with
  | '-' :: '-' :: text => longOption? kinds text
  | _ :: text => shortOptions? kinds text
  | [] => none

/-- Reads one level. A level of commands ends at the first argument, which is a command's name. -/
def scan (kinds : List OptionKind) (ofCommands : Bool) : List String → Option Level
  | [] => some .empty
  | argument :: rest =>
    if argument = "--" then
      if ofCommands && !rest.isEmpty then none else some { Level.empty with arguments := rest }
    else if looksLikeOption argument then
      match options? kinds argument with
      | none => none
      | some ⟨found, none⟩ => (scan kinds ofCommands rest).map (Level.addOptions found)
      | some ⟨found, some name⟩ =>
        match rest with
        | [] => none
        | value :: rest =>
          if looksLikeOption value then none
          else (scan kinds ofCommands rest).map (Level.addOptions (found ++ [(name, value)]))
    else if ofCommands then some { Level.empty with command := some (argument, rest) }
    else (scan kinds ofCommands rest).map (Level.addArgument argument)

/-- Reads one level, in which no option is given more often than it may be. -/
def level? (kinds : List OptionKind) (ofCommands : Bool) (arguments : List String) :
    Option Level :=
  (scan kinds ofCommands arguments).filter (Level.isOrderly kinds)

/-! Commands of the command line. -/

inductive OutputFormat where
  | text
  | json
deriving DecidableEq, Inhabited

inductive SettingsAction where
  | get (key : String)
  | set (key value : String)
  | list
  | reset
  | path
deriving DecidableEq, Inhabited

structure VerifyOptions where
  /-- Sources, modules, or directories with them. -/
  paths : List String
  root : Option String
  policy : Option String
  references : List String
  /-- The tier that every plugin has to pass. -/
  requiredTier : Option UInt8
deriving DecidableEq, Inhabited

structure BuildOptions where
  sources : List String
  directory : String
  perSource : Bool
  references : List String
deriving DecidableEq, Inhabited

inductive Command where
  | verify (options : VerifyOptions)
  | compile (options : BuildOptions)
  | inspect (path : String)
  | tiers (policy : Option String)
  | savedata (identity : String)
  | settings (action : SettingsAction)
deriving DecidableEq, Inhabited

structure CommandLine where
  command : Command
  format : OutputFormat
  isQuiet : Bool
deriving DecidableEq, Inhabited

def flag (name : String) (letter : Option Char) : OptionKind := ⟨name, letter, false, false⟩

def valued (name : String) (letter : Option Char) : OptionKind := ⟨name, letter, true, false⟩

def repeatable (name : String) (letter : Option Char) : OptionKind := ⟨name, letter, true, true⟩

/-- The options that every level has. -/
def commonOptions : List OptionKind := [valued "format" none, flag "quiet" (some 'q')]

def verifyOptions : List OptionKind :=
  [valued "root" none, valued "policy" (some 'p'), repeatable "reference" (some 'r'),
   valued "require-tier" none]

def buildOptions : List OptionKind :=
  [valued "out" (some 'o'), flag "per-source" none, repeatable "reference" (some 'r')]

/-- A path, which is not empty. -/
def path? (text : String) : Option String := if text.isEmpty then none else some text

def paths? (texts : List String) : Option (List String) := texts.mapM path?

/-- At least one path. -/
def somePaths? (texts : List String) : Option (List String) :=
  if texts.isEmpty then none else paths? texts

/-- An option that may be missing, read if it is there. -/
def optional? {α : Type} (read : String → Option α) (l : Level) (name : String) :
    Option (Option α) :=
  match l.value? name with
  | none => some none
  | some text => (read text).map some

/-- A rank between 0 and 255. -/
def rank? (text : String) : Option UInt8 :=
  (Text.int? text.toList).bind fun n =>
    if 0 ≤ n ∧ n < 256 then some (UInt8.ofNat n.toNat) else none

def format? : String → Option OutputFormat
  | "text" => some .text
  | "json" => some .json
  | _ => none

/-- One argument and no more. -/
def single? : List String → Option String
  | [argument] => some argument
  | _ => none

def verify? (l : Level) : Option Command := do
  return .verify {
    paths := ← somePaths? l.arguments
    root := ← optional? path? l "root"
    policy := ← optional? path? l "policy"
    references := ← paths? (l.values "reference")
    requiredTier := ← optional? rank? l "require-tier" }

def build? (l : Level) : Option Command := do
  return .compile {
    sources := ← somePaths? l.arguments
    directory := ← (l.value? "out").bind path?
    perSource := l.has "per-source"
    references := ← paths? (l.values "reference") }

def action? (name : String) (arguments : List String) : Option SettingsAction :=
  match name, arguments with
  | "get", [key] => some (.get key)
  | "set", [key, value] => some (.set key value)
  | "list", [] => some .list
  | "reset", [] => some .reset
  | "path", [] => some .path
  | _, _ => none

/-- A command with the levels below the program's own. -/
def settings? (arguments : List String) : Option (Command × List Level) := do
  let outer ← level? commonOptions true arguments
  let (name, rest) ← outer.command
  let inner ← level? commonOptions false rest
  return (.settings (← action? name inner.arguments), [outer, inner])

def command? (name : String) (arguments : List String) : Option (Command × List Level) :=
  let read := fun (kinds : List OptionKind) (make : Level → Option Command) => do
    let l ← level? (commonOptions ++ kinds) false arguments
    return (← make l, [l])
  match name with
  | "verify" => read verifyOptions verify?
  | "compile" => read buildOptions build?
  | "inspect" => read [] fun l => (single? l.arguments).bind path? |>.map .inspect
  | "tiers" => read [valued "policy" (some 'p')] fun l =>
    if l.arguments.isEmpty then (optional? path? l "policy").map .tiers else none
  | "savedata" => read [] fun l => (single? l.arguments).map .savedata
  | "config" => settings? arguments
  | _ => none

/-- Reads a command line. Of a common option that several levels give, the innermost holds. -/
def CommandLine.ofArguments? (arguments : List String) : Option CommandLine := do
  let outer ← level? commonOptions true arguments
  let (name, rest) ← outer.command
  let (command, inner) ← command? name rest
  let levels := outer :: inner
  let formats ← (levels.filterMap fun l => l.value? "format").mapM format?
  return ⟨command, formats.getLast?.getD .text, levels.any fun l => l.has "quiet"⟩

end PluginHost.Cli
