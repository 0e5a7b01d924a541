import PluginHost.Compile.Staging
import PluginHost.Compile.Toolchain
import PluginHost.Compile.Units
import PluginHost.Image.Artifact
/-!
Compilers: a toolchain, and the binaries that are staged for it.
-/

namespace PluginHost

/-- What a compiler keeps between compilations. -/
structure Compiler where
  /-- Whether staged binaries stay for a next compilation against the same ones. -/
  reuseStaged : Bool
  staged : Option StagedReferences
deriving DecidableEq, Inhabited

/-- What one compilation leaves. -/
structure Compilation where
  compiler : Compiler
  disk : Disk
  /-- The calls of the toolchain, in order. -/
  calls : List ToolchainCall
  result : Except Fault (List Artifact)

/-- What became of one unit. -/
inductive UnitResult where
  | compiled (artifact : Artifact)
  | failed (diagnostics : List Diagnostic)
deriving DecidableEq, Inhabited

namespace UnitResult

def artifact? : UnitResult → Option Artifact
  | compiled artifact => some artifact
  | failed _ => none

def diagnostics : UnitResult → List Diagnostic
  | compiled _ => []
  | failed diagnostics => diagnostics

/-- The artifacts of all units, or what was wrong with those that failed. -/
def collect (results : List UnitResult) : Except Fault (List Artifact) :=
  let diagnostics := results.flatMap diagnostics
  if diagnostics.isEmpty then .ok (results.filterMap artifact?)
  else .error (.compileFailed diagnostics)

end UnitResult

namespace Compiler

/-- How executables of other systems start. -/
def peMagic : List UInt8 := [0x4D, 0x5A]

/-- How symbol files of other systems start. -/
def portablePdbMagic : List UInt8 := [0x42, 0x53, 0x4A, 0x42]

/-- A compiler that has staged nothing. -/
def ofReuse (reuse : Bool) : Compiler := ⟨reuse, none⟩

/-- Removes what is staged. -/
def cleanup (c : Compiler) (disk : Disk) : Compiler × Disk :=
  ({ c with staged := none }, (c.staged.map fun s => disk.removeTree s.directory).getD disk)

/-- Whether the staged binaries are those of some references and still there. -/
def hasStaged (c : Compiler) (disk : Disk) (references : References) : Bool :=
  c.staged.any fun s => s.digest = references.blobDigest && disk.contains s.directory

/-- Provides all references as files. Binaries in memory come after those on disk; others that were
    staged before are removed first. -/
def provide (c : Compiler) (disk : Disk) (references : References) :
    Compiler × Disk × Except Fault (List String) :=
  if references.blobs.isEmpty then (c, disk, .ok references.paths)
  else if c.hasStaged disk references then
    (c, disk, .ok (references.paths ++ (c.staged.map StagedReferences.paths).getD []))
  else
    let (c, disk) := c.cleanup disk
    match StagedReferences.stage disk references with
    | (disk, .error fault) => (c, disk, .error fault)
    | (disk, .ok staged) =>
      ({ c with staged := some staged }, disk, .ok (references.paths ++ staged.paths))

/-- The call that compiles a unit into a directory. -/
def invocation (directory : String) (references : List String) (emitSymbols : Bool)
    (u : CompileUnit) : Invocation :=
  ⟨u.name, u.sources, references, Path.join directory (u.name ++ ".pwmod"),
    if emitSymbols then some (Path.join directory (u.name ++ ".pwsym")) else none⟩

/-- The symbol stream that a call has written. Without a file there is none. -/
def symbolsOf (disk : Disk) (i : Invocation) : Except Fault (Option (List UInt8)) :=
  match i.symbolsOutput.filter disk.isFile with
  | none => .ok none
  | some path =>
    match disk.read path with
    | .error fault => .error (.io fault)
    | .ok bytes =>
      if portablePdbMagic.isPrefixOf bytes then
        .error (.foreignModule ("symbols for " ++ i.unitName ++ " were written as a portable PDB"))
      else .ok (some bytes)

/-- The artifact that a call has written. -/
def artifactOf (disk : Disk) (i : Invocation) : Except Fault Artifact :=
  match disk.read i.output with
  | .error fault =>
    .error (.malformedArtifact ("toolchain produced no module for " ++ i.unitName ++ ": " ++
      fault.message))
  | .ok module =>
    if peMagic.isPrefixOf module then
      .error (.foreignModule (i.unitName ++ " was written as a PE image"))
    else (symbolsOf disk i).bind fun symbols => Artifact.ofBytes i.unitName module symbols

/-- What became of a unit, by the answer to its call. -/
def unitResult (disk : Disk) (i : Invocation) (answer : ToolchainAnswer) :
    Except Fault UnitResult :=
  if answer.success then (artifactOf disk i).map .compiled else .ok (.failed answer.diagnostics)

/-- Makes calls in order. A unit with errors does not keep the others from being compiled; anything
    else that goes wrong ends it. -/
def callAll (toolchain : Toolchain) :
    Disk → List Invocation → Disk × List ToolchainCall × Except Fault (List UnitResult)
  | disk, [] => (disk, [], .ok [])
  | disk, i :: rest =>
    let call : ToolchainCall := ⟨i, disk⟩
    match toolchain disk i with
    | (disk, .error fault) => (disk, [call], .error fault)
    | (disk, .ok answer) =>
      match unitResult disk i answer with
      | .error fault => (disk, [call], .error fault)
      | .ok result =>
        let (disk, calls, results) := callAll toolchain disk rest
        (disk, call :: calls, results.map (result :: ·))

/-- Compiles units in a temporary directory, of which nothing stays. -/
def compileUnits (toolchain : Toolchain) (disk : Disk) (references : List String)
    (emitSymbols : Bool) (units : List CompileUnit) :
    Disk × List ToolchainCall × Except Fault (List Artifact) :=
  match disk.makeTemporary "patchwork-out-" with
  | .error fault => (disk, [], .error (.io fault))
  | .ok (disk, directory) =>
    let (disk, calls, results) :=
      callAll toolchain disk (units.map (invocation directory references emitSymbols))
    (disk.removeTree directory, calls, results.bind UnitResult.collect)

/-- Compiles sources against references. The result has one artifact, or one for each source in
    order, as the mode says. -/
def compile (c : Compiler) (toolchain : Toolchain) (disk : Disk) (sources : List String)
    (references : References) (options : CompileOptions) : Compilation :=
  if sources.isEmpty then ⟨c, disk, [], .error (.invalidInput "no source files to compile")⟩
  else
    match c.provide disk references with
    | (c, disk, .error fault) => ⟨c, disk, [], .error fault⟩
    | (c, disk, .ok paths) =>
      let (disk, calls, result) := compileUnits toolchain disk paths options.emitDebugSymbols
        (CompileUnit.ofSources options.mode sources)
      let (c, disk) := if c.reuseStaged then (c, disk) else c.cleanup disk
      ⟨c, disk, calls, result⟩

end Compiler

end PluginHost
