import PluginHost.Cli.Collection
import PluginHost.Cli.CommandLine
import PluginHost.Cli.Listing
import PluginHost.Compile.External
import PluginHost.Compliance.Verify
import PluginHost.Report.Aggregate
import PluginHost.Savedata.Store
import PluginHost.Settings.Storage
/-!
Carrying out commands.
-/

namespace PluginHost.Cli

/-- What a command depends on besides the disk. -/
structure Surroundings where
  environment : Environment
  programs : Programs
  /-- The time that reports are dated with. -/
  now : String

/-- Why a command failed. -/
inductive CommandFault where
  | settings (fault : SettingsFault)
  | core (fault : Fault)
  | host (fault : HostFault)
  | io (fault : IoFault)
  | noSuchInput (path : String)
  | unreadableModule (path : String)
  | directoryNotMade (path : String)
  /-- Plugins did not pass the tier that was required of them. -/
  | belowTier (rank : UInt8) (identities : List String)
deriving DecidableEq, Inhabited

def CommandFault.message : CommandFault → String
  | settings fault => fault.message
  | core fault => fault.message
  | host fault => fault.message
  | io fault => fault.message
  | noSuchInput path => "No such plugin file or directory: " ++ path
  | unreadableModule path => "Failed to read module: " ++ path
  | directoryNotMade path => "Failed to create output directory: " ++ path
  | belowTier rank identities =>
    number identities.length ++ " plugin(s) did not pass tier " ++ number rank.toNat ++ ": " ++
      ", ".intercalate identities

/-- What a command leaves. What it printed before it failed counts too. -/
structure Execution where
  disk : Disk
  output : String
  /-- Errors in sources, which are printed apart from the command's own. -/
  diagnostics : List Diagnostic
  result : Except CommandFault Unit

namespace Execution

def failed (disk : Disk) (fault : CommandFault) : Execution := ⟨disk, "", [], .error fault⟩

def printed (disk : Disk) (output : String) : Execution := ⟨disk, output, [], .ok ()⟩

/-- An execution that changes nothing on the disk. -/
def ofText (disk : Disk) : Except CommandFault String → Execution
  | .ok output => printed disk output
  | .error fault => failed disk fault

end Execution

def lines (items : List String) : String := String.join (items.map fun line => line ++ "\n")

def loadSettings (around : Surroundings) (disk : Disk) : Except CommandFault Settings :=
  (Settings.load around.environment disk).mapError .settings

/-- The policy that is named, or else the one that the settings name. -/
def loadPolicy (disk : Disk) (s : Settings) (path : Option String) : Except CommandFault Policy :=
  (match path with
    | some path => Policy.loadNamed disk path
    | none => s.policy.load disk).mapError .settings

def compilerOf (s : Settings) : Compiler := .ofReuse s.compiler.reuseStagedReferences

def toolchainOf (around : Surroundings) (s : Settings) : Toolchain :=
  (ExternalCompiler.ofSettings s.compiler).toolchain around.programs

/-- The references of the settings and some more. -/
def referencesOf (s : Settings) (more : List String) : References :=
  ⟨s.compiler.references ++ more, []⟩

/-- What has to be known before plugins are verified. -/
structure VerifyPlan where
  verifier : Verifier
  compiler : Compiler
  plugins : List Submission

def planVerify (around : Surroundings) (disk : Disk) (o : VerifyOptions) :
    Except CommandFault VerifyPlan := do
  let s ← loadSettings around disk
  let policy ← loadPolicy disk s o.policy
  match o.requiredTier with
  | some rank => discard ((policy.tier rank).mapError CommandFault.core)
  | none => pure ()
  let root := o.root.or (s.plugins.sourceDirectory around.environment).toOption
  let files ← (collect disk o.paths).mapError .noSuchInput
  return ⟨⟨policy, toolchainOf around s, referencesOf s o.references⟩, compilerOf s,
    files.map (Submission.ofPath root)⟩

/-- Whether a report shows that a tier was passed. -/
def passes (rank : UInt8) (r : ComplianceReport) : Bool := (r.tier? rank).any fun t => t.passed

/-- Fails if some plugin does not pass the required tier. -/
def requireTier (required : Option UInt8) (reports : List ComplianceReport) :
    Except CommandFault Unit :=
  match required with
  | none => .ok ()
  | some rank =>
    match reports.filter fun r => !passes rank r with
    | [] => .ok ()
    | below => .error (.belowTier rank (below.map fun r => r.identity))

/-- A report of several plugins with its date. -/
def datedReport (now : String) (reports : List ComplianceReport) : Json.Value :=
  .obj ([("generated_at", .str now), ("run_id", .null)] ++ (aggregate reports none).members)

def verify (around : Surroundings) (disk : Disk) (c : CommandLine) (o : VerifyOptions) :
    Execution :=
  match planVerify around disk o with
  | .error fault => .failed disk fault
  | .ok plan =>
    let done := plan.verifier.verifyAll plan.compiler disk plan.plugins
    let (_, disk) := done.compiler.cleanup done.disk
    let output := match c.format with
      | .json => lines [(datedReport around.now done.result).prettyText]
      | .text => lines (done.result.flatMap (complianceLines plan.verifier.policy c.isQuiet))
    ⟨disk, output, [], requireTier o.requiredTier done.result⟩

/-- Writes one module with its symbols. -/
def writeModule (directory : String) (disk : Disk) (a : Artifact) : Disk × Except IoFault String :=
  let path := Path.join directory (a.name ++ "." ++ moduleExtension)
  match disk.write path a.module with
  | .error fault => (disk, .error fault)
  | .ok disk =>
    match a.symbols with
    | none => (disk, .ok path)
    | some symbols =>
      match disk.write (Artifact.symbolsPath path) symbols with
      | .error fault => (disk, .error fault)
      | .ok disk => (disk, .ok path)

/-- Writes modules in order; the first that cannot be written ends it. -/
def writeModules (directory : String) (isQuiet : Bool) : Disk → List Artifact → Execution
  | disk, [] => .printed disk ""
  | disk, a :: rest =>
    match writeModule directory disk a with
    | (disk, .error fault) => .failed disk (.io fault)
    | (disk, .ok path) =>
      let others := writeModules directory isQuiet disk rest
      { others with output := (if isQuiet then "" else "Wrote " ++ path ++ "\n") ++ others.output }

def compile (around : Surroundings) (disk : Disk) (c : CommandLine) (o : BuildOptions) :
    Execution :=
  match loadSettings around disk with
  | .error fault => .failed disk fault
  | .ok s =>
    let mode := if o.perSource then CompileMode.perSource else .combined
    let done := (compilerOf s).compile (toolchainOf around s) disk o.sources
      (referencesOf s o.references) ⟨mode, s.compiler.emitDebugSymbols⟩
    let (_, disk) := done.compiler.cleanup done.disk
    match done.result with
    | .error fault =>
      let diagnostics := match fault with
        | .compileFailed diagnostics => diagnostics
        | _ => []
      ⟨disk, "", diagnostics, .error (.core fault)⟩
    | .ok artifacts =>
      match disk.makeDirectories o.directory with
      | (disk, .error _) => .failed disk (.directoryNotMade o.directory)
      | (disk, .ok ()) => writeModules o.directory c.isQuiet disk artifacts

def moduleJson (a : Artifact) (image : Image) : Json.Value :=
  (Json.Value.obj
    [("name", .str a.name), ("fingerprint", .str a.fingerprint),
     ("has_symbols", .bool a.symbols.isSome), ("image", Image.record.encode image)]).sortMembers

def inspect (disk : Disk) (c : CommandLine) (path : String) : Except CommandFault String := do
  let a ← (Artifact.load disk path).mapError fun _ => CommandFault.unreadableModule path
  let image ← a.image.mapError CommandFault.core
  return lines <| match c.format with
    | .json => [(moduleJson a image).prettyText]
    | .text => moduleLines a image

def tiers (around : Surroundings) (disk : Disk) (c : CommandLine) (path : Option String) :
    Except CommandFault String := do
  let policy ← loadPolicy disk (← loadSettings around disk) path
  return lines <| match c.format with
    | .json => [(Policy.record.encode policy).prettyText]
    | .text => policy.tiers.flatMap tierSummary

def savedataJson (identity : String) (d : SavedataDocument) : Json.Value :=
  (Json.Value.obj
    [("identity", .str identity), ("exists", .bool !d.created),
     ("savedata", (Toml.Value.table d.data).json)]).sortMembers

def savedata (around : Surroundings) (disk : Disk) (c : CommandLine) (identity : String) :
    Except CommandFault String := do
  let s ← loadSettings around disk
  let root ← (s.plugins.savedataDirectory around.environment).mapError CommandFault.settings
  let document ← (SavedataStore.loadFile root disk identity).mapError CommandFault.host
  return match c.format with
    | .json => lines [(savedataJson identity document).prettyText]
    | .text =>
      if document.created then lines ["No savedata for " ++ identity]
      else Savedata.document document.data

/-- Changes one setting and stores all of them. -/
def changeSetting (around : Surroundings) (disk : Disk) (key value : String) :
    Disk × Except SettingsFault Unit :=
  let changed := do
    let s ← Settings.load around.environment disk
    s.set (← SettingsKey.ofName key) value
  match changed with
  | .ok s => s.save around.environment disk
  | .error fault => (disk, .error fault)

/-- The execution of a change, with what is printed when it is made. -/
def ofChange (isQuiet : Bool) (line : String) : Disk × Except SettingsFault Unit → Execution
  | (disk, .ok ()) => .printed disk (if isQuiet then "" else line ++ "\n")
  | (disk, .error fault) => .failed disk (.settings fault)

def settings (around : Surroundings) (disk : Disk) (isQuiet : Bool) : SettingsAction → Execution
  | .get key => .ofText disk do
    let s ← loadSettings around disk
    return s.get (← (SettingsKey.ofName key).mapError CommandFault.settings) ++ "\n"
  | .set key value =>
    ofChange isQuiet ("Set " ++ key ++ " = " ++ value) (changeSetting around disk key value)
  | .list => .ofText disk do
    return lines ((← loadSettings around disk).list.map fun (key, value) => key ++ " = " ++ value)
  | .reset =>
    ofChange isQuiet "Configuration reset to defaults." (Settings.reset around.environment disk)
  | .path => .ofText disk
    ((around.environment.settingsPath.mapError .settings).map fun path => path ++ "\n")

def execute (around : Surroundings) (disk : Disk) (c : CommandLine) : Execution :=
  match c.command with
  | .verify options => verify around disk c options
  | .compile options => compile around disk c options
  | .inspect path => .ofText disk (inspect disk c path)
  | .tiers policy => .ofText disk (tiers around disk c policy)
  | .savedata identity => .ofText disk (savedata around disk c identity)
  | .settings action => settings around disk c.isQuiet action

/-- What the program leaves. -/
structure Exit where
  disk : Disk
  code : Nat
  output : String
  errors : String
deriving Inhabited

/-- What is written about an execution to the error stream. -/
def Execution.errors (e : Execution) : String :=
  lines (e.diagnostics.map fun d => "error: " ++ d.display) ++
    match e.result with
    | .ok () => ""
    | .error fault => "Error: " ++ fault.message ++ "\n"

/-- Runs the program with some arguments. -/
def run (around : Surroundings) (disk : Disk) (arguments : List String) : Exit :=
  match CommandLine.ofArguments? arguments with
  | none => ⟨disk, 2, "", "usage: patchwork [--format text|json] [--quiet] COMMAND\n"⟩
  | some c =>
    let e := execute around disk c
    ⟨e.disk, if e.result.toOption.isSome then 0 else 1, e.output, e.errors⟩

end PluginHost.Cli
