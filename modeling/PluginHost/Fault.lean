import PluginHost.Compile.Diagnostic
import PluginHost.Disk.IoFault
/-!
Why a module, a compilation, a policy or an input was refused.
-/

namespace PluginHost

/-- The compiler front-end that is run unless the configuration names another. -/
def defaultCompiler : String := "patchwork-csc"

inductive Fault where
  | invalidHeader (detail : String)
  | malformedArtifact (detail : String)
  | unsupportedFormat (version : UInt16)
  | compileFailed (diagnostics : List Diagnostic)
  | toolchainUnavailable (detail : String)
  | stagingFailed (detail : String)
  | foreignModule (detail : String)
  | invalidPolicy (detail : String)
  | tierNotFound (rank : UInt8)
  | invalidInput (detail : String)
  | io (fault : IoFault)
deriving DecidableEq, Inhabited

namespace Fault

def number (n : Nat) : String := String.ofList (Text.ofNat n)

def message : Fault → String
  | invalidHeader detail => "Invalid module header: " ++ detail
  | malformedArtifact detail => "Malformed artifact: " ++ detail
  | unsupportedFormat version => "Unsupported artifact format version " ++ number version.toNat
  | compileFailed diagnostics =>
    "Compilation failed with " ++ number diagnostics.length ++ " error(s)"
  | toolchainUnavailable detail =>
    "Compiler could not be started: " ++ detail ++
      ". Check `compiler.program` with `patchwork config get compiler.program`."
  | stagingFailed detail => "Reference staging failed: " ++ detail
  | foreignModule detail => "Compiler emitted a module Patchwork cannot analyze: " ++ detail
  | invalidPolicy detail => "Invalid permission policy: " ++ detail
  | tierNotFound rank =>
    "Tier " ++ number rank.toNat ++
      " is not defined by the active policy. Run `patchwork tiers` to list tiers."
  | invalidInput detail => "Invalid input: " ++ detail
  | io fault => fault.message

/-- The code under which the fault is documented. -/
def code : Fault → String
  | invalidHeader _ => "E001"
  | malformedArtifact _ => "E002"
  | unsupportedFormat _ => "E003"
  | compileFailed _ => "E100"
  | toolchainUnavailable _ => "E101"
  | stagingFailed _ => "E102"
  | foreignModule _ => "E103"
  | invalidPolicy _ => "E200"
  | tierNotFound _ => "E201"
  | invalidInput _ => "E800"
  | io _ => "E9999"

/-- A command that helps to mend the fault. -/
def suggestion : Fault → Option String
  | toolchainUnavailable _ => some "patchwork config get compiler.program"
  | foreignModule _ => some ("patchwork config set compiler.program " ++ defaultCompiler)
  | tierNotFound _ => some "patchwork tiers"
  | invalidPolicy _ => some "patchwork config get policy.path"
  | _ => none

/-- Whether the fault lies in a module or symbol stream. -/
def isArtifactFault : Fault → Bool
  | invalidHeader _ | malformedArtifact _ | unsupportedFormat _ => true
  | _ => false

end Fault

/-! Why the host could not serve a plugin. -/

inductive HostFault where
  | notFound (name : String)
  | moduleLoad (module detail : String)
  | engineUnavailable (detail : String)
  | accessDenied (member : String)
  | savedata (detail : String)
  | io (fault : IoFault)
deriving DecidableEq, Inhabited

def HostFault.message : HostFault → String
  | .notFound name => "Plugin not found: " ++ name
  | .moduleLoad module detail => "Module load failed for '" ++ module ++ "': " ++ detail
  | .engineUnavailable detail => "Interception engine unavailable: " ++ detail
  | .accessDenied member => "Access to '" ++ member ++ "' denied by the active tier"
  | .savedata detail => "Savedata error: " ++ detail
  | .io fault => "Plugin IO error: " ++ fault.message

end PluginHost
