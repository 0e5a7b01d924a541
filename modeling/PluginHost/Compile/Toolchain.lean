import PluginHost.Disk.Disk
import PluginHost.Fault
/-!
Toolchains: what a compiler is asked for and what it answers.
-/

namespace PluginHost

/-- One call of a compiler: make one module of some sources. -/
structure Invocation where
  unitName : String
  sources : List String
  references : List String
  /-- Where the module stream is to be written. -/
  output : String
  /-- Where the symbol stream is to be written, if one is wanted. -/
  symbolsOutput : Option String
deriving DecidableEq, Inhabited

/-- How a call ended. Errors in the sources are an answer, not a fault. -/
structure ToolchainAnswer where
  success : Bool
  diagnostics : List Diagnostic
deriving DecidableEq, Inhabited

/-- A compiler: what a call does to the disk and how it ends. It fails if there is no answer. -/
abbrev Toolchain := Disk → Invocation → Disk × Except Fault ToolchainAnswer

/-- A call and the disk that the compiler found. -/
structure ToolchainCall where
  invocation : Invocation
  disk : Disk
deriving Inhabited

end PluginHost
