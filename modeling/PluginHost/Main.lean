import PluginHost.Cli.Execution
import PluginHost.Disk.Change
import PluginHost.Shell.Machine
import PluginHost.Toml.Datetime
import Std.Time.DateTime.Timestamp
/-!
The program: it copies what concerns it from the machine, runs on the copy, and carries the changes
over.
-/

namespace PluginHost.Cli

/-! Moments as dates and times of day. -/

/-- The date that lies a number of days after the first of January of a year. The fuel bounds the
    months to go through. -/
def dateWithin : Nat → Nat → Nat → Nat → Toml.Date
  | 0, year, month, days => ⟨year, month, days + 1⟩
  | fuel + 1, year, month, days =>
    let length := Toml.daysInMonth year month
    if days < length then ⟨year, month, days + 1⟩
    else if month = 12 then dateWithin fuel (year + 1) 1 (days - length)
    else dateWithin fuel year (month + 1) (days - length)

def secondsOfDay : Nat := 24 * 60 * 60

/-- The time of day after a number of seconds. -/
def timeOfSeconds (seconds nanosecond : Nat) : Toml.Time :=
  ⟨seconds / 3600, seconds / 60 % 60, seconds % 60, nanosecond⟩

/-- The moment a number of nanoseconds after the start of 1970, in universal time. -/
def moment (nanoseconds : Nat) : String :=
  let seconds := nanoseconds / 1000000000
  let days := seconds / secondsOfDay
  let time := timeOfSeconds (seconds % secondsOfDay) (nanoseconds % 1000000000)
  String.ofList (Toml.Datetime.text ⟨dateWithin days 1970 1 days, time, some .universal⟩)

/-! The places on a disk that concern a run. -/

/-- A path, and how many levels of directories below it are of concern. -/
structure Place where
  path : String
  depth : Nat
deriving DecidableEq, Inhabited

/-- How deep plugins are looked for. -/
def maxTreeDepth : Nat := 64

def Place.alone (path : String) : Place := ⟨path, 0⟩

/-- The places that concern every run. Temporary directories are made at the last one. -/
def commonPlaces (e : Environment) : List Place :=
  [⟨".", 1⟩] ++ (e.settingsDirectory.toOption.toList.map fun path => ⟨path, 1⟩) ++
    [.alone Disk.temporaryRoot]

/-- The places that settings name. -/
def settingsPlaces (s : Settings) : List Place :=
  (s.policy.path.toList ++ s.compiler.references ++ [s.compiler.program] ++
    s.compiler.extraArgs).map .alone

/-- The places that a command names. -/
def commandPlaces (e : Environment) (s : Settings) : Command → List Place
  | .verify o =>
    (o.paths.map fun path => ⟨path, maxTreeDepth⟩) ++ (o.policy.toList ++ o.references).map .alone
  | .compile o => (o.sources ++ o.references).map .alone ++ [⟨o.directory, 1⟩]
  | .inspect path => [.alone path, .alone (Artifact.symbolsPath path)]
  | .tiers policy => policy.toList.map .alone
  | .savedata identity =>
    match s.plugins.savedataDirectory e with
    | .ok root => (SavedataStore.documentPath root identity).toOption.toList.map .alone
    | .error _ => []
  | .settings _ => []

/-! Copies of what is on the machine. -/

/-- The variables that the program looks at. -/
def variableNames : List String :=
  ["HOME", "PATH", "PATCHWORK_CONFIG_DIR", "PATCHWORK_DATA_DIR", "PATCHWORK_PLUGIN_DIR",
   "XDG_CONFIG_HOME","XDG_DATA_HOME"]

def readEnvironment : IO Environment := do
  let found ← variableNames.filterMapM fun name => do
    return (← IO.getEnv name).map fun value => (name, value)
  return ⟨found⟩

/-- The names that lead to an absolute path. -/
def placeOf (path : String) : List String :=
  (Path.components path).foldl (fun place c => match c with
    | .normal name => place ++ [name]
    | .parent => place.dropLast
    | .root | .current => place) []

def pathOf (place : List String) : String := "/" ++ "/".intercalate place

/-- A copy of what a path leads to, with directories up to some depth. -/
def copy : Nat → String → IO (Option Entry)
  | depth, path => do
    let found := (← IO.currentDir) / path
    if ← found.isDir then
      match depth with
      | 0 => return some (.directory [])
      | depth + 1 =>
        let entries ← (← found.readDir).toList.filterMapM fun e => do
          return (← copy depth e.path.toString).map fun child => (e.fileName, child)
        return some (.directory (Assoc.ofList entries))
    else
      match ← (IO.FS.readBinFile found).toBaseIO with
      | .ok bytes => return some (.file bytes.toList)
      | .error _ => return none

/-- Adds a copy of what is at a place. -/
def addCopy (depth : Nat) (disk : Disk) (place : List String) : IO Disk := do
  return ((← copy depth (pathOf place)).map (disk.graft place)).getD disk

/-- Adds a copy of what a path leads to, and of the directories on the way. -/
def addPlace (disk : Disk) (p : Place) : IO Disk := do
  let place := placeOf (Path.join (← IO.currentDir).toString p.path)
  let disk ← ((List.range place.length).map place.take).foldlM (addCopy 0) disk
  addCopy p.depth disk place

def carryOut (c : Change) : IO Unit := do
  match c with
  | .remove place =>
    let found := (← IO.currentDir) / pathOf place
    if ← found.isDir then IO.FS.removeDirAll found else IO.FS.removeFile found
  | .makeDirectory place => IO.FS.createDirAll (pathOf place)
  | .write place bytes => IO.FS.writeBinFile (pathOf place) ⟨bytes.toArray⟩

end PluginHost.Cli

open PluginHost in
def main (args : List String) : IO UInt32 := do
  let environment ← Cli.readEnvironment
  let empty : Disk := ⟨[], Cli.placeOf (← IO.currentDir).toString, 0⟩
  let disk ← (Cli.commonPlaces environment).foldlM Cli.addPlace empty
  let settings := (Settings.load environment disk).toOption.getD .standard
  let places := ((Cli.CommandLine.ofArguments? args).map fun c =>
    Cli.settingsPlaces settings ++ Cli.commandPlaces environment settings c.command).getD []
  let disk ← places.foldlM Cli.addPlace disk
  let now := (← Std.Time.Timestamp.now).toNanosecondsSinceUnixEpoch.val.toNat
  let done := Cli.run ⟨environment, Shell.programs environment.entries, Cli.moment now⟩ disk args
  (disk.changes done.disk).forM Cli.carryOut
  IO.print done.output
  IO.eprint done.errors
  return UInt32.ofNat done.code
