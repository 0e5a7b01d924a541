import PluginHost.Json.Record
import PluginHost.Lifecycle.Outcome
/-!
The written form of functions, patches, stages and run outcomes.
-/

namespace PluginHost

open Json

def FunctionName.record : Record FunctionName FunctionName :=
  Record.start FunctionName.mk
    |>.field (.text "namespace" FunctionName.ns)
    |>.field (.text "type_name" FunctionName.typeName)
    |>.field (.text "name" FunctionName.name)

def Location.word : Location → String
  | .before => "Before"
  | .after => "After"

def Location.encode (l : Location) : Value := .str l.word

def Location.decode : Decoder Location :=
  Decoder.name [("Before", .before), ("After", .after)]

def Patch.record : Record Patch Patch :=
  Record.start Patch.mk
    |>.field (.option "target" Patch.target FunctionName.record.encode FunctionName.record.decode)
    |>.field (.option "stub" Patch.stub FunctionName.record.encode FunctionName.record.decode)
    |>.field (.of "location" Patch.location Location.encode Location.decode)
    |>.field (.option "priority" Patch.priority (fun n => .int n.toInt) Decoder.int32)

def Stage.word : Stage → String
  | .construction => "construction"
  | .initialization => "initialize"
  | .configurationLoad => "configuration_load"
  | .prePatch => "pre_patch"

def Stage.encode (s : Stage) : Value := .str s.word

def Stage.decode : Decoder Stage :=
  Decoder.name
    [("construction", .construction), ("initialize", .initialization),
     ("configuration_load", .configurationLoad), ("pre_patch", .prePatch)]

def PluginState.encode : PluginState → Value
  | .constructed => .obj [("state", .str "constructed")]
  | .initialized => .obj [("state", .str "initialized")]
  | .configured => .obj [("state", .str "configured")]
  | .prePatched => .obj [("state", .str "pre_patched")]
  | .patched => .obj [("state", .str "patched")]
  | .failed stage => .obj [("state", .str "failed"), ("stage", stage.encode)]

def PluginState.decode : Decoder PluginState :=
  Decoder.tagged "state" "stage"
    [("constructed", .alone .constructed), ("initialized", .alone .initialized),
     ("configured", .alone .configured), ("pre_patched", .alone .prePatched),
     ("patched", .alone .patched), ("failed", .holds fun c t => (Stage.decode c t).map .failed)]

def StageFailure.record : Record StageFailure StageFailure :=
  Record.start StageFailure.mk
    |>.field (.of "stage" StageFailure.stage Stage.encode Stage.decode)
    |>.field (.text "message" StageFailure.message)
    |>.field (.bool "panicked" StageFailure.panicked)

def PluginInfo.record : Record PluginInfo PluginInfo :=
  Record.start PluginInfo.mk
    |>.field (.text "name" PluginInfo.name)
    |>.field (.option "version" PluginInfo.version .str Decoder.text)
    |>.field (.option "author" PluginInfo.author .str Decoder.text)
    |>.field (.bool "uses_savedata" PluginInfo.usesSavedata)

def ResultCode.word : ResultCode → String
  | .success => "Success"
  | .dependencyLoadFailed => "DependencyLoadFailed"
  | .engineConstructionFailed => "EngineConstructionFailed"
  | .moduleLoadFailed => "ModuleLoadFailed"

def ResultCode.encode (r : ResultCode) : Value := .str r.word

def ResultCode.decode : Decoder ResultCode :=
  Decoder.name
    [("Success", .success), ("DependencyLoadFailed", .dependencyLoadFailed),
     ("EngineConstructionFailed", .engineConstructionFailed),
     ("ModuleLoadFailed", .moduleLoadFailed)]

def PatchStatus.encode : PatchStatus → Value
  | .applied => .obj [("status", .str "applied")]
  | .nullDescriptor => .obj [("status", .str "null_descriptor")]
  | .protectedNamespace ns => .obj [("status", .str "protected_namespace"), ("detail", .str ns)]
  | .interceptionFailed message =>
    .obj [("status", .str "interception_failed"), ("detail", .str message)]

def PatchStatus.decode : Decoder PatchStatus :=
  Decoder.tagged "status" "detail"
    [("applied", .alone .applied), ("null_descriptor", .alone .nullDescriptor),
     ("protected_namespace", .holds fun c t => (Decoder.text c t).map .protectedNamespace),
     ("interception_failed", .holds fun c t => (Decoder.text c t).map .interceptionFailed)]

def PatchOutcome.record : Record PatchOutcome PatchOutcome :=
  Record.start PatchOutcome.mk
    |>.field (.of "descriptor" PatchOutcome.descriptor Patch.record.encode Patch.record.decode)
    |>.field (.of "status" PatchOutcome.status PatchStatus.encode PatchStatus.decode)

def RuntimeRecord.record : Record RuntimeRecord RuntimeRecord :=
  Record.start RuntimeRecord.mk
    |>.field (.text "identity" RuntimeRecord.identity)
    |>.field (.text "type_name" RuntimeRecord.typeName)
    |>.field (.of "state" RuntimeRecord.state PluginState.encode PluginState.decode)
    |>.field (.option "info" RuntimeRecord.info PluginInfo.record.encode PluginInfo.record.decode)
    |>.field (.list "descriptors" RuntimeRecord.descriptors PatchOutcome.record.encode
      PatchOutcome.record.decode)
    |>.field (.option "failure" RuntimeRecord.failure StageFailure.record.encode
      StageFailure.record.decode)

end PluginHost
