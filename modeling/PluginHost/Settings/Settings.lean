import PluginHost.Disk.IoFault
import PluginHost.Fault
import PluginHost.Path
import PluginHost.Text.Cut
/-!
Settings: which compiler is run and how, which policy holds, and where plugins and savedata are. Where settings
and data lie themselves is said by the environment.

Every setting has a key under which it can be shown and changed as text.
-/

namespace PluginHost

/-! Why settings could not be read, changed or stored. -/

inductive SettingsFault where
  /-- A document is no settings document. -/
  | malformed
  | emptyProgram
  | unknownKey (key : String)
  | notBoolean (key value : String)
  | noSettingsDirectory
  | noDataDirectory
  | unreadable (path : String)
  | unusable (path : String)
  | directoryNotMade (path : String)
  | notWritten (path : String)
  | notRemoved (path : String)
  | policyNotLoaded (path : String)
deriving DecidableEq, Inhabited

def SettingsFault.message : SettingsFault → String
  | malformed => "not a settings document"
  | emptyProgram => "compiler.program cannot be empty"
  | unknownKey key =>
    "Unknown configuration key: " ++ key ++ ". Use `patchwork config list` to see available keys."
  | notBoolean key value => "Invalid boolean for " ++ key ++ ": " ++ value
  | noSettingsDirectory => "Could not determine config directory"
  | noDataDirectory => "Could not determine data directory"
  | unreadable path => "Failed to read config file: " ++ path
  | unusable path => "Failed to parse config file: " ++ path
  | directoryNotMade path => "Failed to create config directory: " ++ path
  | notWritten path => "Failed to write config file: " ++ path
  | notRemoved path => "Failed to remove config file: " ++ path
  | policyNotLoaded path => "Failed to load policy file: " ++ path

structure CompilerSettings where
  /-- The compiler front-end, which writes module and symbol streams. -/
  program : String
  extraArgs : List String
  /-- Host binaries that every plugin is compiled against. -/
  references : List String
  emitDebugSymbols : Bool
  reuseStagedReferences : Bool
deriving DecidableEq, Inhabited

structure PolicySettings where
  /-- The policy document; without one the reference policy holds. -/
  path : Option String
deriving DecidableEq, Inhabited

structure PluginSettings where
  sourceDir : Option String
  savedataDir : Option String
deriving DecidableEq, Inhabited

structure Settings where
  compiler : CompilerSettings
  policy : PolicySettings
  plugins : PluginSettings
deriving DecidableEq, Inhabited

/-- The settings of the compiler unless others are made. -/
def CompilerSettings.standard : CompilerSettings := ⟨defaultCompiler, ["-nologo"], [], true, true⟩

inductive SettingsKey where
  | program
  | extraArgs
  | references
  | emitDebugSymbols
  | reuseStagedReferences
  | policyPath
  | sourceDir
  | savedataDir
deriving DecidableEq, Inhabited

namespace SettingsKey

/-- All keys, in the order in which they are listed. -/
def all : List SettingsKey :=
  [program, extraArgs, references, emitDebugSymbols, reuseStagedReferences, policyPath, sourceDir,
   savedataDir]

def name : SettingsKey → String
  | program => "compiler.program"
  | extraArgs => "compiler.extra_args"
  | references => "compiler.references"
  | emitDebugSymbols => "compiler.emit_debug_symbols"
  | reuseStagedReferences => "compiler.reuse_staged_references"
  | policyPath => "policy.path"
  | sourceDir => "plugins.source_dir"
  | savedataDir => "plugins.savedata_dir"

def ofName (name : String) : Except SettingsFault SettingsKey :=
  match all.find? fun key => key.name = name with
  | some key => .ok key
  | none => .error (.unknownKey name)

/-- The key of a name is the key that has the name. -/
theorem ofName_name (key : SettingsKey) : ofName key.name = .ok key := by
  cases key <;> rfl

end SettingsKey

namespace Settings

def standard : Settings := ⟨.standard, ⟨none⟩, ⟨none, none⟩⟩

/-- Settings can be stored and used only with a compiler. -/
def check (s : Settings) : Except SettingsFault Unit :=
  if s.compiler.program.isEmpty then .error .emptyProgram else .ok ()

def boolWord (b : Bool) : String := if b then "true" else "false"

/-- The words for a boolean, in upper or lower case. -/
def boolOfWord? (word : String) : Option Bool :=
  let lower := String.ofList (word.toList.map Char.toLower)
  if lower ∈ ["1", "true", "yes", "on"] then some true
  else if lower ∈ ["0", "false", "no", "off"] then some false
  else none

/-- The items between commas, trimmed, without those that are blank. -/
def splitList (text : String) : List String :=
  (((text.toList.splitOnP (· = ',')).map Text.trim).filter (!·.isEmpty)).map String.ofList

/-- The trimmed text, unless it is blank. -/
def optional (text : String) : Option String :=
  let trimmed := Text.trim text.toList
  if trimmed.isEmpty then none else some (String.ofList trimmed)

/-- The value of a setting as text. -/
def get (s : Settings) : SettingsKey → String
  | .program => s.compiler.program
  | .extraArgs => " ".intercalate s.compiler.extraArgs
  | .references => ", ".intercalate s.compiler.references
  | .emitDebugSymbols => boolWord s.compiler.emitDebugSymbols
  | .reuseStagedReferences => boolWord s.compiler.reuseStagedReferences
  | .policyPath => s.policy.path.getD "(built-in reference policy)"
  | .sourceDir => s.plugins.sourceDir.getD "(default)"
  | .savedataDir => s.plugins.savedataDir.getD "(default)"

def readBool (key : SettingsKey) (text : String) : Except SettingsFault Bool :=
  match boolOfWord? text with
  | some b => .ok b
  | none => .error (.notBoolean key.name text)

/-- Changes a setting to what a text says. -/
def set (s : Settings) (key : SettingsKey) (text : String) : Except SettingsFault Settings := do
  match key with
  | .program =>
    if (Text.trim text.toList).isEmpty then throw .emptyProgram
    return { s with compiler.program := text }
  | .extraArgs =>
    return { s with compiler.extraArgs := (Text.words text.toList).map String.ofList }
  | .references => return { s with compiler.references := splitList text }
  | .emitDebugSymbols => return { s with compiler.emitDebugSymbols := ← readBool key text }
  | .reuseStagedReferences =>
    return { s with compiler.reuseStagedReferences := ← readBool key text }
  | .policyPath => return { s with policy.path := optional text }
  | .sourceDir => return { s with plugins.sourceDir := optional text }
  | .savedataDir => return { s with plugins.savedataDir := optional text }

/-- Changes the setting of a key in place. What was written before a fault stays written. -/
def assignKey (key : SettingsKey) (text : String) : ExceptT SettingsFault (StateM Settings) Unit := do
  match key with
  | .program =>
    if (Text.trim text.toList).isEmpty then throw .emptyProgram
    modify fun s => { s with compiler.program := text }
  | .extraArgs => modify fun s => { s with compiler.extraArgs := (Text.words text.toList).map String.ofList }
  | .references => modify fun s => { s with compiler.references := splitList text }
  | .emitDebugSymbols =>
    let b ← MonadExcept.ofExcept (readBool key text)
    modify fun s => { s with compiler.emitDebugSymbols := b }
  | .reuseStagedReferences =>
    let b ← MonadExcept.ofExcept (readBool key text)
    modify fun s => { s with compiler.reuseStagedReferences := b }
  | .policyPath => modify fun s => { s with policy.path := optional text }
  | .sourceDir => modify fun s => { s with plugins.sourceDir := optional text }
  | .savedataDir => modify fun s => { s with plugins.savedataDir := optional text }

/-- Changes the setting of a name in place: how that ends, and the settings that it leaves. -/
def assign (s : Settings) (name text : String) : Except SettingsFault Unit × Settings :=
  let assignment := do assignKey (← MonadExcept.ofExcept (SettingsKey.ofName name)) text
  assignment.run.run s

/-- All settings with their names. -/
def list (s : Settings) : List (String × String) :=
  SettingsKey.all.map fun key => (key.name, s.get key)

end Settings

/-! Where settings and data lie. -/

/-- The environment variables that are set. -/
structure Environment where
  entries : List (String × String)
deriving Inhabited

namespace Environment

def get? (e : Environment) (name : String) : Option String := e.entries.lookup name

/-- The directory of the user, if there is one. -/
def home? (e : Environment) : Option String := (e.get? "HOME").filter (!·.isEmpty)

/-- A directory that a variable names by an absolute path, else one in the user's. -/
def userDirectory? (e : Environment) (name fallback : String) : Option String :=
  match (e.get? name).filter Path.isAbsolute with
  | some path => some path
  | none => e.home?.map fun home => Path.join home fallback

def settingsDirectory (e : Environment) : Except SettingsFault String :=
  match e.get? "PATCHWORK_CONFIG_DIR" with
  | some path => .ok path
  | none =>
    match e.userDirectory? "XDG_CONFIG_HOME" ".config" with
    | some path => .ok (Path.join path "patchwork")
    | none => .error .noSettingsDirectory

def dataDirectory (e : Environment) : Except SettingsFault String :=
  match e.get? "PATCHWORK_DATA_DIR" with
  | some path => .ok path
  | none =>
    match e.userDirectory? "XDG_DATA_HOME" ".local/share" with
    | some path => .ok (Path.join path "patchwork")
    | none => .error .noDataDirectory

/-- The file with the settings. -/
def settingsPath (e : Environment) : Except SettingsFault String :=
  e.settingsDirectory.map fun path => Path.join path "config.toml"

end Environment

namespace PluginSettings

/-- The directory that plugin identities are relative to. -/
def sourceDirectory (s : PluginSettings) (e : Environment) : Except SettingsFault String :=
  match s.sourceDir.or (e.get? "PATCHWORK_PLUGIN_DIR") with
  | some path => .ok path
  | none => e.dataDirectory.map fun path => Path.join path "plugins"

/-- The directory of the savedata documents. -/
def savedataDirectory (s : PluginSettings) (e : Environment) : Except SettingsFault String :=
  match s.savedataDir with
  | some path => .ok path
  | none => e.dataDirectory.map fun path => Path.join path "savedata"

end PluginSettings

end PluginHost
