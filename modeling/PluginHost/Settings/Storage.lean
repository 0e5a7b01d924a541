import PluginHost.Disk.Disk
import PluginHost.Json.Record
import PluginHost.Policy.Codec
import PluginHost.Settings.Settings
import PluginHost.Toml.Printer
import PluginHost.Toml.Reader
import PluginHost.Toml.Tree
/-!
Settings as documents and on disk, and the policy that they name.
-/

namespace PluginHost

/-! The written form of settings: a TOML document with one table for each group. -/

open Json

/-- What a group of compiler settings leaves out is as in the standard settings, but there are extra
    arguments only where they are given. -/
def CompilerSettings.record : Record CompilerSettings CompilerSettings :=
  Record.start CompilerSettings.mk
    |>.field ((Field.text "program" program).orElse standard.program)
    |>.field ((Field.list "extra_args" extraArgs .str Decoder.text).orElse [])
    |>.field ((Field.list "references" references .str Decoder.text).orElse [])
    |>.field ((Field.bool "emit_debug_symbols" emitDebugSymbols).orElse standard.emitDebugSymbols)
    |>.field ((Field.bool "reuse_staged_references" reuseStagedReferences).orElse
      standard.reuseStagedReferences)

def PolicySettings.record : Record PolicySettings PolicySettings :=
  Record.start PolicySettings.mk |>.field (.option "path" path .str Decoder.text)

def PluginSettings.record : Record PluginSettings PluginSettings :=
  Record.start PluginSettings.mk
    |>.field (.option "source_dir" sourceDir .str Decoder.text)
    |>.field (.option "savedata_dir" savedataDir .str Decoder.text)

namespace Settings

def record : Record Settings Settings :=
  Record.start Settings.mk
    |>.field ((Field.of "compiler" compiler CompilerSettings.record.encode
      CompilerSettings.record.decode).orElse .standard)
    |>.field ((Field.of "policy" policy PolicySettings.record.encode
      PolicySettings.record.decode).orElse ⟨none⟩)
    |>.field ((Field.of "plugins" plugins PluginSettings.record.encode
      PluginSettings.record.decode).orElse ⟨none, none⟩)

def texts (items : List String) : Toml.Value := .arr (items.map .str)

/-- The entry of a setting, if it is set. -/
def optionalEntry (key : String) (value : Option String) : Toml.Table :=
  value.toList.map fun text => (key, .str text)

/-- The groups with their entries, in the order in which they are written. -/
def groups (s : Settings) : Toml.Table :=
  [("compiler", .table
      [("program", .str s.compiler.program), ("extra_args", texts s.compiler.extraArgs),
       ("references", texts s.compiler.references),
       ("emit_debug_symbols", .bool s.compiler.emitDebugSymbols),
       ("reuse_staged_references", .bool s.compiler.reuseStagedReferences)]),
   ("policy", .table (optionalEntry "path" s.policy.path)),
   ("plugins", .table (optionalEntry "source_dir" s.plugins.sourceDir ++
      optionalEntry "savedata_dir" s.plugins.savedataDir))]

def document (s : Settings) : String := Toml.document s.groups

/-- The settings in a document, which have to be fit for use. -/
def ofDocument (text : String) : Except SettingsFault Settings := do
  match (Toml.document? text).bind fun t => record.decode Toml.context (Toml.Value.table t).tree with
  | some s =>
    s.check
    return s
  | none => throw .malformed

end Settings

/-! Settings on disk. -/

/-- The policy in a document on disk. -/
def Policy.load (disk : Disk) (path : String) : Except Fault Policy :=
  match disk.readText path with
  | .ok text => ofToml text
  | .error fault => .error (.io fault)

/-- The policy in a document, with its path as the cause if there is none. -/
def Policy.loadNamed (disk : Disk) (path : String) : Except SettingsFault Policy :=
  (load disk path).mapError fun _ => .policyNotLoaded path

/-- The policy that holds. -/
def PolicySettings.load (s : PolicySettings) (disk : Disk) : Except SettingsFault Policy :=
  match s.path with
  | some path => Policy.loadNamed disk path
  | none => .ok .reference

namespace Settings

/-- The stored settings, or the standard ones if none are stored. -/
def load (e : Environment) (disk : Disk) : Except SettingsFault Settings := do
  let path ← e.settingsPath
  if !disk.contains path then return standard
  match disk.readText path with
  | .ok text => (ofDocument text).mapError fun _ => .unusable path
  | .error _ => throw (.unreadable path)

/-- Stores settings that are fit for use, and makes the directory for them. -/
def save (s : Settings) (e : Environment) (disk : Disk) : Disk × Except SettingsFault Unit :=
  match s.check, e.settingsDirectory, e.settingsPath with
  | .ok (), .ok directory, .ok path =>
    match disk.makeDirectories directory with
    | (disk, .error _) => (disk, .error (.directoryNotMade directory))
    | (disk, .ok ()) =>
      match disk.write path (Text.utf8 s.document.toList) with
      | .ok disk => (disk, .ok ())
      | .error _ => (disk, .error (.notWritten path))
  | .error fault, _, _ | _, .error fault, _ | _, _, .error fault => (disk, .error fault)

/-- Removes stored settings, so that the standard ones hold again. -/
def reset (e : Environment) (disk : Disk) : Disk × Except SettingsFault Unit :=
  match e.settingsPath with
  | .error fault => (disk, .error fault)
  | .ok path =>
    if !disk.contains path then (disk, .ok ())
    else
      match disk.removeFile path with
      | .ok disk => (disk, .ok ())
      | .error _ => (disk, .error (.notRemoved path))

end Settings

end PluginHost
