import PluginHost.Compile.Compiler
import PluginHost.Image.Artifact
/-!
How many artifacts a compilation gives, and which faults it may end with.

Every unit is called for once, and no call gives more than one artifact. A compilation that failed for its sources
has something to say about them: it never ends with an empty list of diagnostics, unless the toolchain itself
answers so.
-/

namespace PluginHost

theorem CompileUnit.length_nameAll (taken : List String) (groups : List (List String)) :
    (nameAll taken groups).length = groups.length := by
  induction groups generalizing taken with
  | nil => rfl
  | cons sources rest ih => rw [nameAll, List.length_cons, List.length_cons, ih]

theorem CompileUnit.length_ofSources_combined (sources : List String) :
    (ofSources .combined sources).length = 1 := by
  rw [ofSources, length_nameAll, List.length_singleton]

theorem UnitResult.length_le_of_collect_eq_ok {results : List UnitResult} {artifacts : List Artifact}
    (hcollect : collect results = .ok artifacts) : artifacts.length ≤ results.length := by
  rw [collect] at hcollect
  split at hcollect
  · cases hcollect
    exact List.length_filterMap_le _ _
  · cases hcollect

namespace Compiler

/-- Calls that all end well: the first one has an answer, its unit is dealt with, and the others start
    on the disk that it left. -/
theorem callAll_cons_eq_ok {toolchain : Toolchain} {disk : Disk} {i : Invocation}
    {rest : List Invocation} {results : List UnitResult}
    (hcalls : (callAll toolchain disk (i :: rest)).2.2 = .ok results) :
    ∃ after answer result others, toolchain disk i = (after, .ok answer) ∧
      unitResult after i answer = .ok result ∧ (callAll toolchain after rest).2.2 = .ok others ∧
      results = result :: others := by
  rcases hanswer : toolchain disk i with ⟨after, fault | answer⟩
  · simp only [callAll, hanswer] at hcalls
    cases hcalls
  · cases hresult : unitResult after i answer with
    | error fault =>
      simp only [callAll, hanswer, hresult] at hcalls
      cases hcalls
    | ok result =>
      simp only [callAll, hanswer, hresult] at hcalls
      cases hothers : (callAll toolchain after rest).2.2 with
      | error fault =>
        rw [hothers] at hcalls
        cases hcalls
      | ok others =>
        rw [hothers] at hcalls
        cases hcalls
        exact ⟨after, answer, result, others, rfl, hresult, hothers, rfl⟩

theorem length_callAll {toolchain : Toolchain} {disk : Disk} {invocations : List Invocation}
    {results : List UnitResult} (hcalls : (callAll toolchain disk invocations).2.2 = .ok results) :
    results.length = invocations.length := by
  induction invocations generalizing disk results with
  | nil =>
    cases hcalls
    rfl
  | cons i rest ih =>
    obtain ⟨after, answer, result, others, _, _, hothers, rfl⟩ := callAll_cons_eq_ok hcalls
    rw [List.length_cons, List.length_cons, ih hothers]

theorem compileUnits_eq_ok {toolchain : Toolchain} {disk : Disk} {references : List String}
    {emitSymbols : Bool} {units : List CompileUnit} {artifacts : List Artifact}
    (hunits : (compileUnits toolchain disk references emitSymbols units).2.2 = .ok artifacts) :
    ∃ made directory results, disk.makeTemporary "patchwork-out-" = .ok (made, directory) ∧
      (callAll toolchain made (units.map (invocation directory references emitSymbols))).2.2 =
        .ok results ∧
      UnitResult.collect results = .ok artifacts := by
  unfold compileUnits at hunits
  split at hunits
  · cases hunits
  · rename_i made directory hmade
    change (Except.bind (callAll toolchain made _).2.2 UnitResult.collect) = _ at hunits
    cases hcalls : (callAll toolchain made
        (units.map (invocation directory references emitSymbols))).2.2 with
    | error fault =>
      rw [hcalls] at hunits
      cases hunits
    | ok results =>
      rw [hcalls] at hunits
      exact ⟨made, directory, results, hmade, hcalls, hunits⟩

section Compile

variable {c after : Compiler} {toolchain : Toolchain} {disk provided left : Disk} {sources paths : List String}
  {references : References} {options : CompileOptions} {calls : List ToolchainCall}

theorem compile_of_provide_error {fault : Fault} (hsources : sources.isEmpty = false)
    (hprovide : c.provide disk references = (after, provided, .error fault)) :
    c.compile toolchain disk sources references options = ⟨after, provided, [], .error fault⟩ := by
  rw [compile, hsources, if_neg Bool.false_ne_true, hprovide]

/-- With all references provided, a compilation comes to what its units come to, and what is staged stays or is
    removed. -/
theorem compile_of_provide {result : Except Fault (List Artifact)} (hsources : sources.isEmpty = false)
    (hprovide : c.provide disk references = (after, provided, .ok paths))
    (hunits : compileUnits toolchain provided paths options.emitDebugSymbols
      (CompileUnit.ofSources options.mode sources) = (left, calls, result)) :
    c.compile toolchain disk sources references options =
      if after.reuseStaged then ⟨after, left, calls, result⟩
      else ⟨(after.cleanup left).1, (after.cleanup left).2, calls, result⟩ := by
  simp only [compile, hsources, hprovide, hunits]
  cases after.reuseStaged <;> rfl

theorem compile_result_of_provide (hsources : sources.isEmpty = false)
    (hprovide : c.provide disk references = (after, provided, .ok paths)) :
    (c.compile toolchain disk sources references options).result =
      (compileUnits toolchain provided paths options.emitDebugSymbols
        (CompileUnit.ofSources options.mode sources)).2.2 := by
  rcases hunits : compileUnits toolchain provided paths options.emitDebugSymbols
    (CompileUnit.ofSources options.mode sources) with ⟨left, calls, result⟩
  rw [compile_of_provide hsources hprovide hunits]
  split <;> rfl

end Compile

/-- A compilation gives at most one artifact for a unit. -/
theorem length_le_of_compile_eq_ok {c : Compiler} {toolchain : Toolchain} {disk : Disk}
    {sources : List String} {references : References} {options : CompileOptions}
    {artifacts : List Artifact}
    (hcompile : (c.compile toolchain disk sources references options).result = .ok artifacts) :
    artifacts.length ≤ (CompileUnit.ofSources options.mode sources).length := by
  cases hsources : sources.isEmpty with
  | true =>
    rw [compile, if_pos hsources] at hcompile
    cases hcompile
  | false =>
    rcases hprovide : c.provide disk references with ⟨staging, made, fault | paths⟩
    · rw [compile_of_provide_error hsources hprovide] at hcompile
      cases hcompile
    · rw [compile_result_of_provide hsources hprovide] at hcompile
      obtain ⟨_, _, results, _, hcalls, hcollect⟩ := compileUnits_eq_ok hcompile
      have hlength := length_callAll hcalls
      rw [List.length_map] at hlength
      exact hlength ▸ UnitResult.length_le_of_collect_eq_ok hcollect

end Compiler

/-! Faults of reading an artifact and of compiling sources. -/

namespace Fault

/-- Every fault that a computation may end with has a property. -/
def Only (P : Fault → Prop) {α : Type} (x : Except Fault α) : Prop :=
  ∀ fault, x = .error fault → P fault

/-- A fault tells what was wrong: a failed compilation has at least one diagnostic. -/
def Telling : Fault → Prop
  | .compileFailed diagnostics => diagnostics ≠ []
  | _ => True

variable {P Q : Fault → Prop} {α β : Type}

@[simp]
theorem only_ok (a : α) : Only P (.ok a : Except Fault α) := by
  intro fault h
  cases h

@[simp]
theorem only_error {fault : Fault} : Only P (.error fault : Except Fault α) ↔ P fault := by
  constructor
  · intro h
    exact h fault rfl
  · intro h other heq
    cases heq
    exact h

theorem Only.mono {x : Except Fault α} (h : Only P x) (hpq : ∀ fault, P fault → Q fault) :
    Only Q x :=
  fun fault hfault => hpq fault (h fault hfault)

theorem Only.bind {x : Except Fault α} {f : α → Except Fault β} (hx : Only P x)
    (hf : ∀ a, x = .ok a → Only P (f a)) : Only P (x >>= f) := by
  cases x with
  | error fault => exact only_error.mpr (only_error.mp hx)
  | ok a => exact hf a rfl

theorem Only.map {x : Except Fault α} (f : α → β) (hx : Only P x) : Only P (x.map f) := by
  cases x with
  | error fault => exact only_error.mpr (only_error.mp hx)
  | ok a => exact only_ok (f a)

theorem telling_of_isArtifactFault {fault : Fault} (h : fault.isArtifactFault = true) :
    fault.Telling := by
  cases fault with
  | compileFailed diagnostics => cases h
  | _ => trivial

theorem only_telling_iff {x : Except Fault α} :
    Only Telling x ↔ x ≠ .error (.compileFailed []) := by
  constructor
  · intro h heq
    exact h _ heq rfl
  · intro h fault hfault
    cases fault with
    | compileFailed diagnostics =>
      rintro rfl
      exact h hfault
    | _ => trivial

end Fault

open Fault

theorem Stream.check_faults (magic bytes : List UInt8) :
    Only (·.isArtifactFault = true) (Stream.check magic bytes) := by
  rw [Stream.check]
  cases readHeader magic bytes with
  | ok size => exact only_ok ()
  | error fault => cases fault <;> exact only_error.mpr rfl

namespace Artifact

theorem ofBytes_faults (name : String) (module : List UInt8) (symbols : Option (List UInt8)) :
    Only (·.isArtifactFault = true) (ofBytes name module symbols) := by
  refine (Stream.check_faults _ _).bind fun _ _ => ?_
  cases symbols with
  | none => exact only_ok _
  | some bytes => exact (Stream.check_faults _ _).bind fun _ _ => only_ok _

theorem readBytes_faults (disk : Disk) (path : String) : Only Telling (readBytes disk path) := by
  rw [readBytes]
  cases disk.read path with
  | ok bytes => exact only_ok bytes
  | error fault => exact only_error.mpr trivial

/-- A module on disk is refused for what it holds or because it cannot be read. -/
theorem load_faults (disk : Disk) (path : String) : Only Telling (load disk path) := by
  have hofBytes : ∀ module symbols, Only Telling (ofBytes ((Path.stem? path).getD "") module symbols) :=
    fun _ _ => (ofBytes_faults _ _ _).mono fun _ => telling_of_isArtifactFault
  refine (readBytes_faults disk path).bind fun module _ => ?_
  dsimp only
  split
  · exact ((readBytes_faults disk _).map some).bind fun _ _ => hofBytes _ _
  · exact (only_ok _).bind fun _ _ => hofBytes _ _

end Artifact

namespace StagedReferences

theorem stageBlob_faults (directory : String) (disk : Disk) (blob : Blob) :
    Only Telling (stageBlob directory disk blob) := by
  rw [stageBlob]
  cases Path.fileName? blob.fileName with
  | none => exact only_error.mpr trivial
  | some name =>
    dsimp only
    split
    · exact only_error.mpr trivial
    · cases disk.write (Path.join directory name) blob.bytes with
      | ok disk => exact only_ok _
      | error fault => exact only_error.mpr trivial

theorem stageBlobs_faults (directory : String) (disk : Disk) (blobs : List Blob) :
    Only Telling (stageBlobs directory disk blobs) := by
  induction blobs generalizing disk with
  | nil => exact only_ok _
  | cons blob rest ih =>
    refine (stageBlob_faults directory disk blob).bind fun staged _ => ?_
    exact (ih staged.1).bind fun _ _ => only_ok _

theorem stage_faults (disk : Disk) (references : References) :
    Only Telling (stage disk references).2 := by
  unfold stage
  split
  · exact only_error.mpr trivial
  · rename_i made directory _
    have hfaults := stageBlobs_faults directory made references.blobs
    split
    · rename_i fault hstaged
      exact only_error.mpr (hfaults fault hstaged)
    · exact only_ok _

end StagedReferences

namespace Compiler

theorem provide_faults (c : Compiler) (disk : Disk) (references : References) :
    Only Telling (c.provide disk references).2.2 := by
  rw [provide]
  split
  · exact only_ok _
  · split
    · exact only_ok _
    · dsimp only
      have hfaults := StagedReferences.stage_faults (c.cleanup disk).2 references
      rcases hstage : StagedReferences.stage (c.cleanup disk).2 references with ⟨disk, fault | staged⟩
      · exact only_error.mpr (hfaults fault (by rw [hstage]))
      · exact only_ok _

theorem symbolsOf_faults (disk : Disk) (i : Invocation) : Only Telling (symbolsOf disk i) := by
  rw [symbolsOf]
  cases i.symbolsOutput.filter disk.isFile with
  | none => exact only_ok _
  | some path =>
    dsimp only
    cases disk.read path with
    | error fault => exact only_error.mpr trivial
    | ok bytes =>
      dsimp only
      split
      · exact only_error.mpr trivial
      · exact only_ok _

theorem artifactOf_faults (disk : Disk) (i : Invocation) : Only Telling (artifactOf disk i) := by
  rw [artifactOf]
  cases disk.read i.output with
  | error fault => exact only_error.mpr trivial
  | ok module =>
    dsimp only
    split
    · exact only_error.mpr trivial
    · refine (symbolsOf_faults disk i).bind fun symbols _ => ?_
      exact (Artifact.ofBytes_faults _ _ _).mono fun _ => telling_of_isArtifactFault

theorem unitResult_faults (disk : Disk) (i : Invocation) (answer : ToolchainAnswer) :
    Only Telling (unitResult disk i answer) := by
  rw [unitResult]
  split
  · exact (artifactOf_faults disk i).map _
  · exact only_ok _

/-- Calls end with a fault of the toolchain or with one about a file that it should have written. -/
theorem callAll_faults {toolchain : Toolchain}
    (htoolchain : ∀ disk i, (toolchain disk i).2 ≠ .error (.compileFailed [])) (disk : Disk)
    (invocations : List Invocation) : Only Telling (callAll toolchain disk invocations).2.2 := by
  induction invocations generalizing disk with
  | nil => exact only_ok _
  | cons i rest ih =>
    rw [callAll]
    have hcall := only_telling_iff.mpr (htoolchain disk i)
    rcases hanswer : toolchain disk i with ⟨after, fault | answer⟩
    · exact only_error.mpr (hcall fault (by rw [hanswer]))
    · have hunit := unitResult_faults after i answer
      dsimp only
      cases hresult : unitResult after i answer with
      | error fault => exact only_error.mpr (hunit fault hresult)
      | ok result => exact (ih after).map _

theorem collect_faults (results : List UnitResult) : Only Telling (UnitResult.collect results) := by
  rw [UnitResult.collect]
  split
  · exact only_ok _
  · rename_i hnonempty
    exact only_error.mpr (by simpa [Telling] using hnonempty)

theorem compileUnits_faults {toolchain : Toolchain}
    (htoolchain : ∀ disk i, (toolchain disk i).2 ≠ .error (.compileFailed [])) (disk : Disk)
    (references : List String) (emitSymbols : Bool) (units : List CompileUnit) :
    Only Telling (compileUnits toolchain disk references emitSymbols units).2.2 := by
  unfold compileUnits
  split
  · exact only_error.mpr trivial
  · exact (callAll_faults htoolchain _ _).bind fun results _ => collect_faults results

/-- A compilation fails with something to say, unless the toolchain fails without. -/
theorem compile_faults {toolchain : Toolchain}
    (htoolchain : ∀ disk i, (toolchain disk i).2 ≠ .error (.compileFailed [])) (c : Compiler)
    (disk : Disk) (sources : List String) (references : References) (options : CompileOptions) :
    Only Telling (c.compile toolchain disk sources references options).result := by
  cases hsources : sources.isEmpty with
  | true =>
    rw [compile, if_pos hsources]
    exact only_error.mpr trivial
  | false =>
    have hstaging := c.provide_faults disk references
    rcases hprovide : c.provide disk references with ⟨staging, made, fault | paths⟩
    · rw [compile_of_provide_error hsources hprovide]
      exact only_error.mpr (hstaging fault (by rw [hprovide]))
    · rw [compile_result_of_provide hsources hprovide]
      exact compileUnits_faults htoolchain _ _ _ _

end Compiler

end PluginHost
