import PluginHost.Fault
import PluginHost.Json.Access
/-!
The written form of faults: an object with the kind of the fault and its message.
-/

namespace PluginHost

open Json

namespace Fault

/-- The name of a kind of fault. -/
def kind : Fault → String
  | invalidHeader _ => "InvalidHeader"
  | malformedArtifact _ => "MalformedArtifact"
  | unsupportedFormat _ => "UnsupportedFormat"
  | compileFailed _ => "CompileFailed"
  | toolchainUnavailable _ => "ToolchainUnavailable"
  | stagingFailed _ => "StagingFailed"
  | foreignModule _ => "ForeignModule"
  | invalidPolicy _ => "InvalidPolicy"
  | tierNotFound _ => "TierNotFound"
  | invalidInput _ => "InvalidInput"
  | io _ => "Io"

/-- The fault of a kind, by what it is about. -/
def ofKind (kind : String) (about : Tree) : Fault :=
  match kind with
  | "InvalidHeader" => invalidHeader about.text
  | "MalformedArtifact" => malformedArtifact about.text
  | "UnsupportedFormat" => unsupportedFormat (UInt16.ofNat about.nat)
  | "CompileFailed" => compileFailed (about.items.filterMap (Diagnostic.record.decode .json))
  | "ToolchainUnavailable" => toolchainUnavailable about.text
  | "StagingFailed" => stagingFailed about.text
  | "ForeignModule" => foreignModule about.text
  | "InvalidPolicy" => invalidPolicy about.text
  | "TierNotFound" => tierNotFound (UInt8.ofNat about.nat)
  | "InvalidInput" => invalidInput about.text
  | _ => io (.other about.text)

def encode (f : Fault) : Value :=
  .obj [("error", .str f.kind), ("message", .str f.message), ("code", .str f.code),
    ("suggestion", Value.ofOption .str f.suggestion), ("artifact_error", .bool f.isArtifactFault)]

end Fault

namespace HostFault

def kind : HostFault → String
  | notFound _ => "NotFound"
  | moduleLoad _ _ => "ModuleLoad"
  | engineUnavailable _ => "EngineUnavailable"
  | accessDenied _ => "AccessDenied"
  | savedata _ => "Savedata"
  | io _ => "IoError"

/-- The fault of a kind, by what it is about. -/
def ofKind (kind about detail : String) : HostFault :=
  match kind with
  | "NotFound" => notFound about
  | "ModuleLoad" => moduleLoad about detail
  | "EngineUnavailable" => engineUnavailable about
  | "AccessDenied" => accessDenied about
  | "Savedata" => savedata about
  | _ => io (.other about)

def encode (f : HostFault) : Value := .obj [("error", .str f.kind), ("message", .str f.message)]

end HostFault

end PluginHost
