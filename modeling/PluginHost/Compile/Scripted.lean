import PluginHost.Compile.Toolchain
/-!
Scripted toolchains: what becomes of a call is laid down for its first source.
-/

namespace PluginHost

inductive ScriptedOutcome where
  | answer (diagnostics : List Diagnostic)
  | fault (fault : Fault)
  /-- Streams that are written where the call wants them. -/
  | streams (module symbols : Option (List UInt8))
deriving Inhabited

namespace ScriptedOutcome

/-- Writes a stream, if there is one and a place for it. -/
def write (disk : Disk) (path : Option String) (bytes : Option (List UInt8)) :
    Disk × Except Fault Unit :=
  match path, bytes with
  | some path, some bytes =>
    match disk.write path bytes with
    | .ok disk => (disk, .ok ())
    | .error e => (disk, .error (.io e))
  | _, _ => (disk, .ok ())

/-- Answers a call. A stream that cannot be written ends it. -/
def toolchain (outcomeOf : String → ScriptedOutcome) : Toolchain := fun disk i =>
  match outcomeOf (i.sources.headD "") with
  | answer diagnostics => (disk, .ok ⟨false, diagnostics⟩)
  | fault f => (disk, .error f)
  | streams module symbols =>
    match write disk (some i.output) module with
    | (disk, .error f) => (disk, .error f)
    | (disk, .ok ()) =>
      let (disk, written) := write disk i.symbolsOutput symbols
      (disk, written.map fun _ => ⟨true, []⟩)

end ScriptedOutcome

end PluginHost
