import PluginHost.Lifecycle.Outcome
import PluginHost.Members
import PluginHost.Patching.Patch
import PluginHost.Toml.Value
/-!
Plugins: what their code may do in each stage.

Each stage hands over the code of the next one, so a plugin may carry what it likes from stage to
stage. Whatever it does, a stage ends in one of three ways.
-/

namespace PluginHost

/-- How the code of a stage ended. -/
inductive Completion (α : Type) where
  | returned (value : α)
  | failed (message : String)
  /-- The code panicked, with a text or with something that is no text. -/
  | panicked (message : Option String)
deriving Inhabited

namespace Completion

/-- What a panic without a text is reported as. -/
def unknownPanic : String := "unknown panic"

/-- The value, or the failure of the stage. -/
def outcome {α : Type} (stage : Stage) : Completion α → Except StageFailure α
  | returned value => .ok value
  | failed message => .error ⟨stage, message, false⟩
  | panicked message => .error ⟨stage, message.getD unknownPanic, true⟩

end Completion

/-- The code of the stage in which a plugin declares its patches. -/
structure PatchStage where
  patches : Completion (List Patch)
deriving Inhabited

/-- The code of the stage in which a plugin works on its savedata. It leaves a table and lines for
    the log in any case. -/
structure Configuration where
  data : Toml.Table
  log : List Json.Value
  next : Completion PatchStage

/-- A plugin that was initialized. A plugin without savedata goes straight to its patches. -/
structure InitializedPlugin where
  configure : Toml.Table → Configuration
  patchStage : PatchStage

/-- The code of the first stage, step by step: what it asks of the host and how it goes on. -/
inductive Initialization where
  | finish (result : Completion InitializedPlugin)
  /-- Writes a line to the log. -/
  | log (line : Json.Value) (next : Initialization)
  /-- Changes what the plugin declares about itself. -/
  | declare (change : PluginInfo → PluginInfo) (next : Initialization)
  | inspect (next : PluginInfo → Initialization)
  /-- Asks whether members of the host can be reached at all. -/
  | hasAccess (next : Bool → Initialization)
  /-- Reads a member; without access there is no answer. -/
  | read (member : MemberName) (next : Option (Except HostFault Json.Value) → Initialization)
  | write (member : MemberName) (value : Json.Value)
      (next : Option (Except HostFault Unit) → Initialization)

/-- The constructors of a module, by type name. -/
abbrev Activator := String → Completion Initialization

/-- What a run of the first stage leaves. -/
structure Initialized where
  result : Completion InitializedPlugin
  info : PluginInfo
  members : Members
  log : List Json.Value

/-- Runs the first stage. Members are reached under a tier, or not at all. -/
def Initialization.run (access : Option Tier) (info : PluginInfo) (members : Members)
    (log : List Json.Value) : Initialization → Initialized
  | .finish result => ⟨result, info, members, log⟩
  | .log line next => next.run access info members (log ++ [line])
  | .declare change next => next.run access (change info) members log
  | .inspect next => (next info).run access info members log
  | .hasAccess next => (next access.isSome).run access info members log
  | .read member next =>
    (next (access.map fun tier => Members.guardedRead tier members member)).run
      access info members log
  | .write member value next =>
    match access with
    | none => (next none).run access info members log
    | some tier =>
      match Members.guardedWrite tier members member value with
      | .ok members => (next (some (.ok ()))).run access info members log
      | .error fault => (next (some (.error fault))).run access info members log

end PluginHost
