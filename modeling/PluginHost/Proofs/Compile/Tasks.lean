import PluginHost.Proofs.Compile.Artifacts
import PluginHost.Proofs.Compile.StagingOutcome
import PluginHost.Proofs.Compile.UnitNames
/-!
Toolchains that only do what they are asked for.

A toolchain is reproducible if it writes nothing but the outputs of a call, and if the answer and the outputs
depend only on what the call is about: not on where the outputs are written, and of the references only on
names and bytes. Main statement: what becomes of a unit is then told from the task alone.
-/

namespace PluginHost

open Entry PluginHost.Path Disk

/-- What a call is about. -/
structure Task where
  unitName : String
  /-- The sources, and what is read there. -/
  sources : List (String × Except IoFault (List UInt8))
  wantsSymbols : Bool
  /-- The file names of the references, and what is read there. -/
  references : List (Option String × Except IoFault (List UInt8))

/-- What comes of a call: the answer, and what is read afterwards where the outputs were to be written. -/
structure CallOutcome where
  answer : Except Fault ToolchainAnswer
  module : Except IoFault (List UInt8)
  symbols : Option (Except IoFault (List UInt8))

def Invocation.outputs (i : Invocation) : List String := i.output :: i.symbolsOutput.toList

namespace ToolchainCall

def task (call : ToolchainCall) : Task where
  unitName := call.invocation.unitName
  sources := call.invocation.sources.map fun path => (path, call.disk.read path)
  wantsSymbols := call.invocation.symbolsOutput.isSome
  references := call.invocation.references.map fun path => (fileName? path, call.disk.read path)

def outcome (toolchain : Toolchain) (call : ToolchainCall) : CallOutcome where
  answer := (toolchain call.disk call.invocation).2
  module := (call.left toolchain).read call.invocation.output
  symbols := call.invocation.symbolsOutput.map (call.left toolchain).read

/-- The outputs of the call are to be written into a temporary directory in which there is nothing yet, under the
    name of the unit. -/
structure WritesInto (call : ToolchainCall) (name : String) : Prop where
  isName : IsName name
  fits : Fits ["tmp", name]
  empty : call.disk.entryAt? ["tmp", name] = some (.directory [])
  isStem : IsStem call.invocation.unitName
  output : call.invocation.output = ofNames ["tmp", name, withDot call.invocation.unitName moduleExtension]
  symbolsOutput : ∀ path, call.invocation.symbolsOutput = some path →
    path = ofNames ["tmp", name, withDot call.invocation.unitName Artifact.symbolsExtension]

end ToolchainCall

/-- Files are written, and all of them at some paths. -/
inductive WritesOnly (paths : List String) : Disk → Disk → Prop
  | nothing (d : Disk) : WritesOnly paths d d
  | write {d d' d'' : Disk} {path : String} {bytes : List UInt8} (hpath : path ∈ paths)
    (hwrite : d.write path bytes = .ok d') (hrest : WritesOnly paths d' d'') : WritesOnly paths d d''

/-- The toolchain writes only the outputs of a call, and answer and outputs depend only on the task. -/
structure Reproducible (toolchain : Toolchain) : Prop where
  writes_outputs : ∀ (call : ToolchainCall) name, call.WritesInto name →
    WritesOnly call.invocation.outputs call.disk (call.left toolchain)
  outcome_of_task : ∀ (call call' : ToolchainCall) name name', call.WritesInto name → call'.WritesInto name' →
    call.task = call'.task → call.outcome toolchain = call'.outcome toolchain

namespace ToolchainCall

variable {toolchain : Toolchain} {call call' : ToolchainCall} {name name' : String}

theorem WritesInto.outputs (h : call.WritesInto name) {path : String} (hpath : path ∈ call.invocation.outputs) :
    ∃ file, IsName file ∧ path = ofNames ["tmp", name, file] := by
  rcases List.mem_cons.mp hpath with rfl | hsymbols
  · exact ⟨_, h.isStem.isName_withDot Artifact.isExtension_module, h.output⟩
  · exact ⟨_, h.isStem.isName_withDot Artifact.isExtension_symbols,
      h.symbolsOutput path (Option.mem_toList.mp hsymbols)⟩

/-- Outputs are written without any change outside of their directory. -/
theorem touches_of_writesOnly (hinto : call.WritesInto name) {d d' : Disk}
    (h : WritesOnly call.invocation.outputs d d') : Touches (· = name) d d' ∧ d'.temporaries = d.temporaries := by
  induction h with
  | nothing d => exact ⟨.refl _ d, rfl⟩
  | @write d d' d'' path bytes hpath hwrite _ ih =>
    obtain ⟨file, hfile, rfl⟩ := hinto.outputs hpath
    obtain ⟨_, _, rfl⟩ := write_eq_ok (StagedReferences.isPlace_staged hinto.isName hfile) hwrite
    have hput : Touches (· = name) d (d.modify (put (.file bytes) ["tmp", name, file])) :=
      touches_put rfl ⟨[file], rfl⟩
    exact ⟨hput.trans ih.1, ih.2.trans (temporaries_modify d _)⟩

/-- What becomes of the unit of a call. -/
def unitResult (toolchain : Toolchain) (call : ToolchainCall) : Except Fault UnitResult :=
  (call.outcome toolchain).answer.bind (Compiler.unitResult (call.left toolchain) call.invocation)

end ToolchainCall

namespace Compiler

variable {d d' : Disk} {i i' : Invocation}

theorem symbolsOf_congr (hname : i.unitName = i'.unitName)
    (hsymbols : i.symbolsOutput.map d.read = i'.symbolsOutput.map d'.read) : symbolsOf d i = symbolsOf d' i' := by
  unfold symbolsOf
  rw [hname]
  cases hpath : i.symbolsOutput with
  | none =>
    rw [hpath, Option.map_none, eq_comm, Option.map_eq_none_iff] at hsymbols
    rw [hsymbols]
    rfl
  | some path =>
    rw [hpath, Option.map_some, eq_comm, Option.map_eq_some_iff] at hsymbols
    obtain ⟨path', hpath', hread⟩ := hsymbols
    rw [hpath', Option.filter_some, Option.filter_some, isFile_eq_isOk_read, isFile_eq_isOk_read, hread]
    cases d.read path with
    | error fault => rfl
    | ok bytes =>
      simp only [Except.isOk, Except.toBool, if_true]
      rw [hread]

theorem unitResult_congr (hname : i.unitName = i'.unitName) (hmodule : d.read i.output = d'.read i'.output)
    (hsymbols : i.symbolsOutput.map d.read = i'.symbolsOutput.map d'.read) (answer : ToolchainAnswer) :
    unitResult d i answer = unitResult d' i' answer := by
  unfold unitResult artifactOf
  rw [hname, hmodule, symbolsOf_congr hname hsymbols]

end Compiler

namespace ToolchainCall

variable {toolchain : Toolchain} {call call' : ToolchainCall} {name name' : String}

/-- Calls with the same task become the same. -/
theorem unitResult_eq (htoolchain : Reproducible toolchain) (h : call.WritesInto name) (h' : call'.WritesInto name')
    (htask : call.task = call'.task) : call.unitResult toolchain = call'.unitResult toolchain := by
  have houtcome := htoolchain.outcome_of_task call call' name name' h h' htask
  have hunit : call.invocation.unitName = call'.invocation.unitName := congrArg Task.unitName htask
  rw [unitResult, unitResult, houtcome]
  cases (call'.outcome toolchain).answer with
  | error fault => rfl
  | ok answer =>
    exact Compiler.unitResult_congr hunit (congrArg CallOutcome.module houtcome)
      (congrArg CallOutcome.symbols houtcome) answer

end ToolchainCall

namespace Compiler

variable {toolchain : Toolchain} {d : Disk} {name : String} {references : List String} {emitSymbols : Bool}
  {u : CompileUnit}

/-- One call: a fault is the last word, and anything else goes in front of what the other calls come to. -/
theorem callAll_cons (toolchain : Toolchain) (call : ToolchainCall) (rest : List Invocation) :
    callAll toolchain call.disk (call.invocation :: rest) =
      match call.unitResult toolchain with
      | .error fault => (call.left toolchain, [call], .error fault)
      | .ok result =>
        let others := callAll toolchain (call.left toolchain) rest
        (others.1, call :: others.2.1, others.2.2.map (result :: ·)) := by
  rw [callAll, ToolchainCall.unitResult, ToolchainCall.outcome, ToolchainCall.left]
  rcases toolchain call.disk call.invocation with ⟨after, fault | answer⟩
  · rfl
  · cases hresult : unitResult after call.invocation answer <;> simp only [Except.bind, hresult]

theorem callAll_singleton (toolchain : Toolchain) (call : ToolchainCall) :
    callAll toolchain call.disk [call.invocation] =
      (call.left toolchain, [call], (call.unitResult toolchain).map fun result => [result]) := by
  rw [callAll_cons]
  cases call.unitResult toolchain <;> rfl

/-- The call for a unit that writes into a temporary directory which has just been made. -/
def unitCall (d : Disk) (name : String) (references : List String) (emitSymbols : Bool) (u : CompileUnit) :
    ToolchainCall :=
  ⟨invocation (ofNames ["tmp", name]) references emitSymbols u, d.withTemporary name⟩

theorem writesInto_unitCall (references : List String) (emitSymbols : Bool) (hname : IsName name)
    (hfits : Fits ["tmp", name]) (hstem : IsStem u.name) (htmp : d.temporaryFault? = none) :
    (unitCall d name references emitSymbols u).WritesInto name := by
  have hdirectory := isPlace_temporary hname
  have hjoin : ∀ {ext}, IsExtension ext → Path.join (ofNames ["tmp", name]) (withDot u.name ext) =
      ofNames ["tmp", name, withDot u.name ext] := fun hext => join_ofNames hdirectory (hstem.isName_withDot hext)
  have hdot : ∀ ext, u.name ++ ("." ++ ext) = withDot u.name ext := fun ext => (String.append_assoc).symm
  refine ⟨hname, hfits, entryAt?_withTemporary (hasDirectory_tmp htmp), hstem, ?_, fun path hpath => ?_⟩
  · exact (congrArg _ (hdot moduleExtension)).trans (hjoin Artifact.isExtension_module)
  · rw [unitCall, invocation] at hpath
    cases emitSymbols with
    | false => cases hpath
    | true =>
      have hsymbols := (congrArg (Path.join (ofNames ["tmp", name])) (hdot Artifact.symbolsExtension)).trans
        (hjoin Artifact.isExtension_symbols)
      exact (Option.some.inj hpath).symm.trans hsymbols

/-- One unit that is compiled in a directory of a new name. -/
theorem compileUnits_of_new (references : List String) (emitSymbols : Bool) (htoolchain : Reproducible toolchain)
    (hstem : IsStem u.name) (hnumber : name = temporaryName "patchwork-out-" d.temporaries)
    (hnew : d.IsNew name) :
    ∃ d' calls result, compileUnits toolchain d references emitSymbols [u] = (d', calls, result) ∧
      d.UsesTemporary d' ∧ (∀ fault, d.temporaryFault? = some fault → result = .error (.io fault)) ∧
      (d.temporaryFault? = none →
        result = ((unitCall d name references emitSymbols u).unitResult toolchain).bind fun result =>
          UnitResult.collect [result]) := by
  have hstart : "patchwork-out-" ∈ temporaryStarts := by decide
  have hname : IsName name := hnumber ▸ isName_temporaryName hstart d.temporaries
  unfold compileUnits
  rw [makeTemporary_eq hstart hnumber hnew]
  cases hfault : d.temporaryFault? with
  | some fault =>
    refine ⟨d, [], _, rfl, .refl d, fun other hother => ?_, fun hnone => ?_⟩
    · cases hother
      rfl
    · cases hnone
  | none =>
    have hinto : (unitCall d name references emitSymbols u).WritesInto name :=
      writesInto_unitCall references emitSymbols hname hnew.fits hstem hfault
    obtain ⟨htouches, htemporaries⟩ :=
      ToolchainCall.touches_of_writesOnly hinto (htoolchain.writes_outputs _ _ hinto)
    have hmade : Touches (· = name) d (d.withTemporary name) := touches_withTemporary rfl
    obtain ⟨hremoved, hkept⟩ :
        Touches (· = name) ((unitCall d name references emitSymbols u).left toolchain) _ ∧ _ :=
      touches_removeTree hname rfl
    have hcount := temporaries_withTemporary d name
    have hdisk : (unitCall d name references emitSymbols u).disk = d.withTemporary name := rfl
    rw [hdisk] at htouches htemporaries
    have hcalls : callAll toolchain (d.withTemporary name)
        ([u].map (invocation (ofNames ["tmp", name]) references emitSymbols)) = _ :=
      callAll_singleton toolchain (unitCall d name references emitSymbols u)
    have huses := usesTemporary_of_touches hstart hnumber ((hmade.trans htouches).trans hremoved)
      (hkept.trans (htemporaries.trans hcount))
    dsimp only
    rw [hcalls]
    refine ⟨_, _, _, rfl, huses, fun fault hsome => ?_, fun _ => ?_⟩
    · cases hsome
    · cases (unitCall d name references emitSymbols u).unitResult toolchain <;> rfl

end Compiler

/-! Toolchains that are made from a function of tasks. -/

/-- The toolchain that makes of every task what a function says: a module, or diagnostics. -/
def taskToolchain (make : Task → Except (List Diagnostic) (List UInt8)) : Toolchain := fun disk i =>
  match make (⟨i, disk⟩ : ToolchainCall).task with
  | .error diagnostics => (disk, .ok ⟨false, diagnostics⟩)
  | .ok module =>
    match disk.write i.output module with
    | .ok disk => (disk, .ok ⟨true, []⟩)
    | .error fault => (disk, .error (.io fault))

namespace ToolchainCall

variable {call : ToolchainCall} {name file : String} {d : Disk} {bytes : List UInt8}

theorem WritesInto.holds (h : call.WritesInto name) : StagedReferences.Holds call.disk name [] :=
  StagedReferences.holds_nil h.empty

theorem WritesInto.absent (h : call.WritesInto name) (hfile : IsName file) :
    call.disk.entryAt? ["tmp", name, file] = none := by
  rw [← Option.not_isSome_iff_eq_none, h.holds.taken_iff hfile]
  exact List.not_mem_nil

/-- What is read where nothing is, in a directory for temporary use. -/
theorem read_absent (hname : IsName name) (hfits : Fits ["tmp", name]) (hdirectory : d.HasDirectory ["tmp", name])
    (hfile : IsName file) (habsent : d.entryAt? ["tmp", name, file] = none) :
    d.read (ofNames ["tmp", name, file]) = .error ((fileFault? file).getD .notFound) := by
  rw [read_eq, place_staged hname hfile hfits hdirectory]
  cases fileFault? file with
  | some fault => rfl
  | none =>
    rw [← kindAt?_eq_none_iff] at habsent
    simp only [Except.bind, habsent, Option.getD_none]

/-- What comes of a call, by its task alone. -/
def taskOutcome (make : Task → Except (List Diagnostic) (List UInt8)) (task : Task) : CallOutcome :=
  let file := withDot task.unitName moduleExtension
  let nothing := Except.error ((fileFault? (withDot task.unitName Artifact.symbolsExtension)).getD .notFound)
  let symbols := if task.wantsSymbols then some nothing else none
  match make task with
  | .error diagnostics => ⟨.ok ⟨false, diagnostics⟩, .error ((fileFault? file).getD .notFound), symbols⟩
  | .ok module =>
    match fileFault? file with
    | some fault => ⟨.error (.io fault), .error fault, symbols⟩
    | none => ⟨.ok ⟨true, []⟩, .ok module, symbols⟩

/-- What is read for symbols where none were written. -/
theorem WritesInto.symbols_absent (h : call.WritesInto name) (hdirectory : d.HasDirectory ["tmp", name])
    (habsent : d.entryAt? ["tmp", name, withDot call.invocation.unitName Artifact.symbolsExtension] = none) :
    call.invocation.symbolsOutput.map d.read = if call.task.wantsSymbols then
      some (.error ((fileFault? (withDot call.task.unitName Artifact.symbolsExtension)).getD .notFound)) else none := by
  rw [task]
  cases hpath : call.invocation.symbolsOutput with
  | none => rfl
  | some path =>
    rw [Option.map_some, h.symbolsOutput path hpath,
      read_absent h.isName h.fits hdirectory (h.isStem.isName_withDot Artifact.isExtension_symbols) habsent]
    rfl

/-- The module is read where it was written, and nothing is read for symbols. -/
theorem WritesInto.read_written (h : call.WritesInto name) (module : List UInt8)
    (hfault : fileFault? (withDot call.invocation.unitName moduleExtension) = none) :
    let written := call.disk.modify
      (put (.file module) ["tmp", name, withDot call.invocation.unitName moduleExtension])
    written.read call.invocation.output = .ok module ∧
      call.invocation.symbolsOutput.map written.read = if call.task.wantsSymbols then
          some (.error ((fileFault? (withDot call.task.unitName Artifact.symbolsExtension)).getD .notFound))
        else none := by
  intro written
  have hmodule := h.isStem.isName_withDot Artifact.isExtension_module
  have hsymbols := h.isStem.isName_withDot Artifact.isExtension_symbols
  have hne : withDot call.invocation.unitName moduleExtension ≠
      withDot call.invocation.unitName Artifact.symbolsExtension := fun heq =>
    absurd (h.isStem.withDot_inj Artifact.isExtension_module h.isStem Artifact.isExtension_symbols heq).2 (by decide)
  have hwritten : written.entryAt? ["tmp", name, withDot call.invocation.unitName moduleExtension] =
      some (.file module) := entryAt?_put_self (List.cons_ne_nil _ _) h.empty
  have hother : written.entryAt? ["tmp", name, withDot call.invocation.unitName Artifact.symbolsExtension] = none :=
    (entryAt?_put_of_apart (((apart_of_ne hne [] []).cons name).cons "tmp")).trans (h.absent hsymbols)
  refine ⟨?_, h.symbols_absent (h.holds.put hfault).directory hother⟩
  rw [h.output, read_ofNames (StagedReferences.isPlace_staged h.isName hmodule) (fits_staged h.fits hfault) hwritten]

/-- A call writes the module or nothing, and its outcome is that of its task. -/
theorem outcome_taskToolchain (make : Task → Except (List Diagnostic) (List UInt8)) (h : call.WritesInto name) :
    WritesOnly call.invocation.outputs call.disk (call.left (taskToolchain make)) ∧
      call.outcome (taskToolchain make) = taskOutcome make call.task := by
  have hmodule := h.isStem.isName_withDot Artifact.isExtension_module
  have hsymbols := h.isStem.isName_withDot Artifact.isExtension_symbols
  have hnothing := h.symbols_absent h.holds.directory (h.absent hsymbols)
  have hread := read_absent h.isName h.fits h.holds.directory hmodule (h.absent hmodule)
  have hunit : call.task.unitName = call.invocation.unitName := rfl
  rw [outcome, left, taskToolchain, taskOutcome, hunit]
  cases make call.task with
  | error diagnostics =>
    dsimp only
    rw [hnothing, h.output, hread]
    exact ⟨.nothing _, rfl⟩
  | ok module =>
    have hwrite := StagedReferences.write_staged module h.isName h.fits h.holds hmodule List.not_mem_nil
    rw [← h.output] at hwrite hread
    dsimp only
    rw [hwrite]
    cases hfault : fileFault? (withDot call.invocation.unitName moduleExtension) with
    | some fault =>
      rw [hfault] at hread
      dsimp only
      rw [hnothing, hread]
      exact ⟨.nothing _, rfl⟩
    | none =>
      rw [hfault] at hwrite
      obtain ⟨hwritten, hnone⟩ := h.read_written module hfault
      dsimp only
      rw [hwritten, hnone]
      exact ⟨.write List.mem_cons_self hwrite (.nothing _), rfl⟩

/-- Every function of tasks makes a reproducible toolchain. -/
theorem reproducible_taskToolchain (make : Task → Except (List Diagnostic) (List UInt8)) :
    Reproducible (taskToolchain make) where
  writes_outputs _ _ h := (outcome_taskToolchain make h).1
  outcome_of_task call call' _ _ h h' htask := by
    rw [(outcome_taskToolchain make h).2, (outcome_taskToolchain make h').2, htask]

end ToolchainCall

end PluginHost
