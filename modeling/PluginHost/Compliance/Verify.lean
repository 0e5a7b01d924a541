import PluginHost.Compile.Compiler
import PluginHost.Compliance.Analysis
import PluginHost.Compliance.Report
import PluginHost.Image.Artifact
import PluginHost.Path
import PluginHost.Policy.Policy
/-!
Verification: a plugin is compiled or read once, and then tested against every tier of a policy. A
plugin of which there is no module to test passes no tier.
-/

namespace PluginHost

/-! Plugins as they are handed in for verification. -/

/-- The extension of plugins that are modules already. -/
def moduleExtension : String := "pwmod"

/-- A plugin, and what it is called in reports. -/
inductive Submission where
  | source (identity : String) (files : List String)
  | binary (identity path : String)
deriving DecidableEq, Inhabited

namespace Submission

def identity : Submission → String
  | source identity _ => identity
  | binary identity _ => identity

/-- What a file is called: its path below the root if it lies there, else its path. Backslashes
    count as slashes. Paths are texts, so there is none whose bytes would have to be replaced to show it. -/
def identityOf (root : Option String) (path : String) : String :=
  let below := (root.bind fun root => Path.stripBase? root path).getD path
  String.ofList (Text.replaceChar '\\' '/' below.toList)

/-- Whether the extension says that a file is a module. Upper and lower case letters of ASCII are not
    told apart. -/
def namesModule (path : String) : Bool :=
  (Path.extension? path).any fun extension =>
    extension.toList.map Char.toLower = moduleExtension.toList

/-- The plugin in one file. -/
def ofPath (root : Option String) (path : String) : Submission :=
  if namesModule path then binary (identityOf root path) path
  else source (identityOf root path) [path]

end Submission

/-- What plugins are verified with. -/
structure Verifier where
  policy : Policy
  toolchain : Toolchain
  references : References

/-- What verifications leave. -/
structure Verification (α : Type) where
  compiler : Compiler
  disk : Disk
  calls : List ToolchainCall
  result : α

namespace ComplianceReport

/-- The report on a plugin that no tier was tested with. -/
def untested (policy : Policy) (identity : String) : ComplianceReport :=
  ⟨identity, none, [], none, policy.tiers.map fun t => .untested t.rank⟩

/-- The report on a plugin of which no artifact was obtained. -/
def ofFault (policy : Policy) (identity : String) : Fault → ComplianceReport
  | .compileFailed diagnostics => { untested policy identity with compileErrors := diagnostics }
  | fault => { untested policy identity with loadError := some fault.message }

/-- The report on an artifact, which every tier sees decoded in the same way. -/
def ofArtifact (policy : Policy) (identity : String) (artifact : Artifact) : ComplianceReport :=
  let report := { untested policy identity with fingerprint := some artifact.fingerprint }
  match artifact.image, artifact.debugSymbols with
  | .ok image, .ok symbols =>
    { report with tiers := policy.tiers.map fun t => Analysis.ofImage t image symbols }
  | .error fault, _ | _, .error fault => { report with loadError := some fault.message }

def ofResult (policy : Policy) (identity : String) : Except Fault Artifact → ComplianceReport
  | .ok artifact => ofArtifact policy identity artifact
  | .error fault => ofFault policy identity fault

end ComplianceReport

namespace Verifier

/-- The artifact of a plugin: the last one that its compilation gives, or the one on disk. -/
def obtain (v : Verifier) (compiler : Compiler) (disk : Disk) :
    Submission → Verification (Except Fault Artifact)
  | .binary _ path => ⟨compiler, disk, [], Artifact.load disk path⟩
  | .source _ files =>
    let done := compiler.compile v.toolchain disk files v.references .forAnalysis
    let result := done.result.bind fun artifacts =>
      match artifacts.getLast? with
      | some artifact => .ok artifact
      | none => .error (.malformedArtifact "compiler returned no artifact")
    ⟨done.compiler, done.disk, done.calls, result⟩

/-- The report on one plugin. -/
def verify (v : Verifier) (compiler : Compiler) (disk : Disk) (plugin : Submission) :
    Verification ComplianceReport :=
  let obtained := v.obtain compiler disk plugin
  { obtained with
    result := ComplianceReport.ofResult v.policy plugin.identity obtained.result }

/-- The reports on several plugins, in order. -/
def verifyAll (v : Verifier) :
    Compiler → Disk → List Submission → Verification (List ComplianceReport)
  | compiler, disk, [] => ⟨compiler, disk, [], []⟩
  | compiler, disk, plugin :: rest =>
    let first := v.verify compiler disk plugin
    let others := verifyAll v first.compiler first.disk rest
    ⟨others.compiler, others.disk, first.calls ++ others.calls, first.result :: others.result⟩

end Verifier

end PluginHost
