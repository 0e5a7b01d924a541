import PluginHost.Patching.Patch
/-!
The stages that a plugin goes through and how it can fail in one, and outcomes: what became of every
plugin and every patch in one run.
-/

namespace PluginHost

/-- The stages in which code of a plugin runs, in order. -/
inductive Stage where
  | construction
  | initialization
  | configurationLoad
  | prePatch
deriving DecidableEq, Inhabited

def Stage.display : Stage → String
  | .construction => "construction"
  | .initialization => "Initialize"
  | .configurationLoad => "configuration load"
  | .prePatch => "PrePatch"

/-- How far a plugin has come. -/
inductive PluginState where
  | constructed
  | initialized
  | configured
  | prePatched
  | patched
  | failed (stage : Stage)
deriving DecidableEq, Inhabited

/-- Whether the plugin will go no further. -/
def PluginState.isTerminal : PluginState → Bool
  | .patched | .failed _ => true
  | _ => false

structure StageFailure where
  stage : Stage
  message : String
  /-- Whether the plugin panicked rather than reported the failure. -/
  panicked : Bool
deriving DecidableEq, Inhabited

def StageFailure.display (f : StageFailure) : String :=
  "failed " ++ f.stage.display ++ ": " ++ f.message ++ if f.panicked then " (panic)" else ""

/-- What a plugin declares about itself. -/
structure PluginInfo where
  name : String
  version : Option String
  author : Option String
  /-- Whether the plugin has a savedata document that is loaded and saved for it. -/
  usesSavedata : Bool
deriving DecidableEq, Inhabited

/-- What holds of a plugin that declares nothing but its name. -/
def PluginInfo.named (name : String) : PluginInfo := ⟨name, none, none, true⟩

/-! Outcomes of a run. -/

/-- How a run ended. -/
inductive ResultCode where
  | success
  | dependencyLoadFailed
  | engineConstructionFailed
  | moduleLoadFailed
deriving DecidableEq, Inhabited

/-- What became of one patch. -/
inductive PatchStatus where
  | applied
  /-- The target or the stub is missing. -/
  | nullDescriptor
  /-- The target lies in a protected namespace. -/
  | protectedNamespace (ns : String)
  | interceptionFailed (message : String)
deriving DecidableEq, Inhabited

structure PatchOutcome where
  descriptor : Patch
  status : PatchStatus
deriving DecidableEq, Inhabited

/-- What became of one plugin. -/
structure RuntimeRecord where
  identity : String
  typeName : String
  state : PluginState
  /-- Missing if the plugin was never constructed. -/
  info : Option PluginInfo
  descriptors : List PatchOutcome
  failure : Option StageFailure
deriving DecidableEq, Inhabited

/-- The conditions that abort a whole run. -/
inductive RunFault where
  | dependencyLoad (dependency detail : String)
  | engineConstruction (detail : String)
  | moduleLoad (identity detail : String)
deriving DecidableEq, Inhabited

namespace RunFault

def message : RunFault → String
  | dependencyLoad dependency detail =>
    "Shared dependency '" ++ dependency ++ "' failed to load: " ++ detail
  | engineConstruction detail => "Interception engine could not be constructed: " ++ detail
  | moduleLoad identity detail => "Plugin module '" ++ identity ++ "' failed to load: " ++ detail

def resultCode : RunFault → ResultCode
  | dependencyLoad _ _ => .dependencyLoadFailed
  | engineConstruction _ => .engineConstructionFailed
  | moduleLoad _ _ => .moduleLoadFailed

end RunFault

/-- The result of a run: its code, the text of the fault that aborted it, and a record for every
    plugin. -/
structure Outcome where
  result : ResultCode
  fatalDetail : Option String
  records : List RuntimeRecord
deriving DecidableEq, Inhabited

namespace Outcome

def isSuccess (o : Outcome) : Bool := o.result = .success

/-- The records of one identity. -/
def recordsFor (o : Outcome) (identity : String) : List RuntimeRecord :=
  o.records.filter fun r => r.identity = identity

/-- The first record of a plugin type. -/
def record? (o : Outcome) (typeName : String) : Option RuntimeRecord :=
  o.records.find? fun r => r.typeName = typeName

end Outcome

end PluginHost
