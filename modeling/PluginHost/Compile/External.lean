import PluginHost.Compile.Toolchain
import PluginHost.Program.Program
import PluginHost.Settings.Settings
import PluginHost.Text.Cut
/-!
External compilers: programs that are started with the sources as arguments.

They have to write streams of their own format; the files that a usual compiler of the language
writes are told apart later and refused.
-/

namespace PluginHost

structure ExternalCompiler where
  program : String
  extraArgs : List String
deriving DecidableEq, Inhabited

namespace ExternalCompiler

def ofSettings (s : CompilerSettings) : ExternalCompiler := ⟨s.program, s.extraArgs⟩

/-- The arguments for a call: extra ones, outputs, references and sources. -/
def arguments (c : ExternalCompiler) (i : Invocation) : List String :=
  c.extraArgs ++ ["-out:" ++ i.output] ++
    (i.symbolsOutput.toList.map fun path => "-pdb:" ++ path) ++
    (i.references.map fun path => "-r:" ++ path) ++ i.sources

/-- The diagnostics in a text, one a line. -/
def diagnosticsOf (text : List Char) : List Diagnostic :=
  (Text.lines text).filterMap fun line => Diagnostic.ofErrorLine? (String.ofList line)

/-- The answer that a program gives by the way it ended and by what it wrote. One that fails without
    a diagnostic is given one. -/
def answerOf (r : ProgramResult) : ToolchainAnswer :=
  let errors := Text.ofUtf8Lossy r.errors
  let found := diagnosticsOf (Text.ofUtf8Lossy r.output) ++ diagnosticsOf errors
  if r.status.isSuccess || !found.isEmpty then ⟨r.status.isSuccess, found⟩
  else
    let detail := Text.trim errors
    let message := if detail.isEmpty then "compiler exited with " ++ r.status.display
      else String.ofList detail
    ⟨false, [.ofMessage message]⟩

/-- The toolchain that a compiler is on a machine with some programs. -/
def toolchain (c : ExternalCompiler) (programs : Programs) : Toolchain := fun disk i =>
  match programs disk c.program (c.arguments i) with
  | (disk, .ok result) => (disk, .ok (answerOf result))
  | (disk, .error fault) =>
    (disk, .error (.toolchainUnavailable (c.program ++ ": " ++ fault.message)))

end ExternalCompiler

end PluginHost
