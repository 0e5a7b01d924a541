import Mathlib.Data.List.Forall2
import PluginHost.Compile.External
import PluginHost.Image.Artifact
import PluginHost.Proofs.Compile.Artifacts
/-!
What a compilation that succeeds has to do with the answers of its toolchain.

The toolchain is called for every unit in order. A unit that fails is passed over, and only its diagnostics
tell of it afterwards. Main statements: the artifacts are those of the calls that succeeded, and they are
one for each unit exactly if no call has failed without a diagnostic; and no call of an external compiler does.
-/

namespace PluginHost

/-- The groups of sources that become one module each. -/
def CompileMode.groups (mode : CompileMode) (sources : List String) : List (List String) :=
  match mode with
  | .combined => [sources]
  | .perSource => sources.map fun s => [s]

theorem CompileMode.length_groups (mode : CompileMode) (sources : List String) :
    (mode.groups sources).length = match mode with
      | .combined => 1
      | .perSource => sources.length := by
  cases mode with
  | combined => rfl
  | perSource => exact List.length_map _

theorem CompileUnit.sources_nameAll (taken : List String) (groups : List (List String)) :
    (nameAll taken groups).map (·.sources) = groups := by
  induction groups generalizing taken with
  | nil => rfl
  | cons sources rest ih => rw [nameAll, List.map_cons, ih]

theorem CompileUnit.sources_ofSources (mode : CompileMode) (sources : List String) :
    (ofSources mode sources).map (·.sources) = mode.groups sources := by
  cases mode <;> exact sources_nameAll [] _

namespace ToolchainCall

/-- The disk that a toolchain leaves after a call. -/
def left (toolchain : Toolchain) (call : ToolchainCall) : Disk :=
  (toolchain call.disk call.invocation).1

/-- Whether the toolchain reports success. -/
def succeeds (toolchain : Toolchain) (call : ToolchainCall) : Bool :=
  match (toolchain call.disk call.invocation).2 with
  | .ok answer => answer.success
  | .error _ => false

/-- The toolchain reports a failure and has nothing to say about it. -/
def FailsSilently (toolchain : Toolchain) (call : ToolchainCall) : Prop :=
  (toolchain call.disk call.invocation).2 = .ok ⟨false, []⟩

theorem succeeds_of_answer {toolchain : Toolchain} {call : ToolchainCall} {answer : ToolchainAnswer}
    (h : (toolchain call.disk call.invocation).2 = .ok answer) :
    call.succeeds toolchain = answer.success := by
  rw [succeeds, h]

/-- An artifact as its call has made it: the call succeeded, the module is what then stood at the output of
    the call, and symbols are what stood where the call was to write them. -/
structure Delivers (toolchain : Toolchain) (call : ToolchainCall) (artifact : Artifact) : Prop where
  succeeds : call.succeeds toolchain = true
  name : artifact.name = call.invocation.unitName
  module : (call.left toolchain).read call.invocation.output = .ok artifact.module
  symbols : ∀ bytes, artifact.symbols = some bytes →
    ∃ path, call.invocation.symbolsOutput = some path ∧ (call.left toolchain).read path = .ok bytes

end ToolchainCall

theorem Artifact.eq_of_ofBytes {name : String} {module : List UInt8} {symbols : Option (List UInt8)}
    {artifact : Artifact} (h : ofBytes name module symbols = .ok artifact) :
    artifact = ⟨name, module, symbols⟩ := by
  rw [ofBytes] at h
  cases hmodule : Stream.check Stream.moduleMagic module with
  | error fault =>
    rw [hmodule] at h
    cases h
  | ok _ =>
    rw [hmodule] at h
    cases symbols with
    | none =>
      cases h
      rfl
    | some bytes =>
      cases hsymbols : Stream.check Stream.symbolsMagic bytes with
      | error fault =>
        simp only [bind, Except.bind, hsymbols] at h
        cases h
      | ok _ =>
        simp only [bind, Except.bind, hsymbols] at h
        cases h
        rfl

namespace Compiler

theorem symbolsOf_eq_some {disk : Disk} {i : Invocation} {bytes : List UInt8}
    (h : symbolsOf disk i = .ok (some bytes)) :
    ∃ path, i.symbolsOutput = some path ∧ disk.read path = .ok bytes := by
  rw [symbolsOf] at h
  split at h
  · cases h
  · next path hpath =>
    obtain ⟨houtput, _⟩ := Option.filter_eq_some_iff.mp hpath
    split at h
    · cases h
    · next found hread =>
      split at h
      · cases h
      · cases h
        exact ⟨path, houtput, hread⟩

/-- The artifact of a unit holds what is on the disk, under the name of the unit. -/
theorem artifactOf_eq_ok {disk : Disk} {i : Invocation} {artifact : Artifact}
    (h : artifactOf disk i = .ok artifact) :
    artifact.name = i.unitName ∧ disk.read i.output = .ok artifact.module ∧
      ∀ bytes, artifact.symbols = some bytes →
        ∃ path, i.symbolsOutput = some path ∧ disk.read path = .ok bytes := by
  rw [artifactOf] at h
  split at h
  · cases h
  · next module hread =>
    split at h
    · cases h
    · cases hsymbols : symbolsOf disk i with
      | error fault =>
        rw [hsymbols] at h
        cases h
      | ok symbols =>
        rw [hsymbols] at h
        have hartifact := Artifact.eq_of_ofBytes h
        subst hartifact
        refine ⟨rfl, hread, fun bytes hbytes => ?_⟩
        have hbytes : symbols = some bytes := hbytes
        rw [hbytes] at hsymbols
        exact symbolsOf_eq_some hsymbols

/-- What a call of the toolchain has become: an artifact that it delivers, or a failure. -/
inductive Becomes (toolchain : Toolchain) (call : ToolchainCall) : UnitResult → Prop
  | compiled {artifact : Artifact} (hdelivers : call.Delivers toolchain artifact) :
    Becomes toolchain call (.compiled artifact)
  | failed {diagnostics : List Diagnostic}
      (hanswer : (toolchain call.disk call.invocation).2 = .ok ⟨false, diagnostics⟩) :
    Becomes toolchain call (.failed diagnostics)

theorem becomes_of_unitResult {toolchain : Toolchain} {disk after : Disk} {i : Invocation}
    {answer : ToolchainAnswer} {result : UnitResult} (hanswer : toolchain disk i = (after, .ok answer))
    (hresult : unitResult after i answer = .ok result) : Becomes toolchain ⟨i, disk⟩ result := by
  rw [unitResult] at hresult
  split at hresult
  · next hsuccess =>
    cases hartifact : artifactOf after i with
    | error fault =>
      rw [hartifact] at hresult
      cases hresult
    | ok artifact =>
      rw [hartifact] at hresult
      cases hresult
      obtain ⟨hname, hmodule, hsymbols⟩ := artifactOf_eq_ok hartifact
      have hanswered : (⟨i, disk⟩ : ToolchainCall).succeeds toolchain = answer.success :=
        ToolchainCall.succeeds_of_answer (congrArg Prod.snd hanswer)
      refine .compiled ⟨hanswered.trans hsuccess, hname, ?_, ?_⟩
      · rw [ToolchainCall.left, hanswer]
        exact hmodule
      · rw [ToolchainCall.left, hanswer]
        exact hsymbols
  · next hfailure =>
    cases hresult
    obtain ⟨success, diagnostics⟩ := answer
    have hfailure : success = false := by simpa using hfailure
    subst hfailure
    exact .failed (by rw [hanswer])

/-- Calls that all have an answer: there is one for each invocation, in order, and each has become what
    stands in the results. -/
theorem callAll_becomes {toolchain : Toolchain} {disk : Disk} {invocations : List Invocation}
    {results : List UnitResult} (hcalls : (callAll toolchain disk invocations).2.2 = .ok results) :
    (callAll toolchain disk invocations).2.1.map (·.invocation) = invocations ∧
      List.Forall₂ (Becomes toolchain) (callAll toolchain disk invocations).2.1 results := by
  induction invocations generalizing disk results with
  | nil =>
    cases hcalls
    exact ⟨rfl, .nil⟩
  | cons i rest ih =>
    obtain ⟨after, answer, result, others, hanswer, hresult, hothers, rfl⟩ :=
      callAll_cons_eq_ok hcalls
    obtain ⟨hinvocations, hbecome⟩ := ih hothers
    have hmade : (callAll toolchain disk (i :: rest)).2.1 =
        ⟨i, disk⟩ :: (callAll toolchain after rest).2.1 := by
      simp only [callAll, hanswer, hresult]
    rw [hmade]
    exact ⟨by rw [List.map_cons, hinvocations],
      .cons (becomes_of_unitResult hanswer hresult) hbecome⟩

end Compiler

namespace UnitResult

theorem collect_eq_ok {results : List UnitResult} {artifacts : List Artifact}
    (h : collect results = .ok artifacts) :
    (∀ result ∈ results, result.diagnostics = []) ∧ results.filterMap artifact? = artifacts := by
  rw [collect] at h
  split at h
  · next hempty =>
    cases h
    exact ⟨List.flatMap_eq_nil_iff.mp (List.isEmpty_iff.mp hempty), rfl⟩
  · cases h

end UnitResult

namespace Compiler

variable {toolchain : Toolchain} {calls : List ToolchainCall} {results : List UnitResult}

/-- Without a diagnostic, a call has delivered an artifact or has failed silently. -/
theorem Becomes.cases_of_undiagnosed {call : ToolchainCall} {result : UnitResult}
    (h : Becomes toolchain call result) (hdiagnostics : result.diagnostics = []) :
    (∃ artifact, result = .compiled artifact ∧ call.Delivers toolchain artifact) ∨
      (result.artifact? = none ∧ call.succeeds toolchain = false ∧ call.FailsSilently toolchain) := by
  cases h with
  | compiled hdelivers => exact Or.inl ⟨_, rfl, hdelivers⟩
  | failed hanswer =>
    have hnone : _ = [] := hdiagnostics
    subst hnone
    exact Or.inr ⟨rfl, ToolchainCall.succeeds_of_answer hanswer, hanswer⟩

/-- Without a diagnostic from any call, the artifacts are those of the calls that succeeded. -/
theorem forall₂_delivers (hbecome : List.Forall₂ (Becomes toolchain) calls results)
    (hdiagnostics : ∀ result ∈ results, result.diagnostics = []) :
    (∀ call ∈ calls, call.succeeds toolchain = true ∨ call.FailsSilently toolchain) ∧
      List.Forall₂ (ToolchainCall.Delivers toolchain) (calls.filter (·.succeeds toolchain))
        (results.filterMap UnitResult.artifact?) := by
  induction hbecome with
  | nil => exact ⟨List.forall_mem_nil _, .nil⟩
  | @cons call result calls results hhead _ ih =>
    obtain ⟨hanswers, hdeliver⟩ := ih fun r hr => hdiagnostics r (List.mem_cons_of_mem _ hr)
    rw [List.forall_mem_cons]
    rcases hhead.cases_of_undiagnosed (hdiagnostics result List.mem_cons_self) with
      ⟨artifact, rfl, hdelivers⟩ | ⟨hnone, hfailure, hsilent⟩
    · refine ⟨⟨Or.inl hdelivers.succeeds, hanswers⟩, ?_⟩
      rw [List.filter_cons_of_pos hdelivers.succeeds]
      exact .cons hdelivers hdeliver
    · refine ⟨⟨Or.inr hsilent, hanswers⟩, ?_⟩
      rw [List.filter_cons_of_neg (by simp [hfailure]), List.filterMap_cons_none hnone]
      exact hdeliver

/-- In a temporary directory, units come to what their calls come to. -/
theorem compileUnits_of_made {disk made : Disk} {directory : String} {references : List String}
    {emitSymbols : Bool} {units : List CompileUnit}
    (hmade : disk.makeTemporary "patchwork-out-" = .ok (made, directory)) :
    (compileUnits toolchain disk references emitSymbols units).2 =
      ((callAll toolchain made (units.map (invocation directory references emitSymbols))).2.1,
        (callAll toolchain made (units.map (invocation directory references emitSymbols))).2.2.bind
          UnitResult.collect) := by
  unfold compileUnits
  rw [hmade]

/-- With all references provided, the calls of a compilation are those for its units. -/
theorem compile_calls_of_provide {c : Compiler} {disk : Disk} {sources : List String}
    {references : References} {options : CompileOptions} {staging : Compiler} {made : Disk}
    {paths : List String} (hsources : sources.isEmpty = false)
    (hprovide : c.provide disk references = (staging, made, .ok paths)) :
    (c.compile toolchain disk sources references options).calls =
      (compileUnits toolchain made paths options.emitDebugSymbols
        (CompileUnit.ofSources options.mode sources)).2.1 := by
  rcases hunits : compileUnits toolchain made paths options.emitDebugSymbols
    (CompileUnit.ofSources options.mode sources) with ⟨after, calls, result⟩
  rw [compile_of_provide hsources hprovide hunits]
  split <;> rfl

/-- A compilation fails before it calls the toolchain, or it comes to what the calls for its units come to. -/
theorem compile_cases (c : Compiler) (toolchain : Toolchain) (disk : Disk) (sources : List String)
    (references : References) (options : CompileOptions) :
    let done := c.compile toolchain disk sources references options
    (done.calls = [] ∧ ∃ fault, done.result = .error fault) ∨
      ∃ made directory paths,
        let all := callAll toolchain made ((CompileUnit.ofSources options.mode sources).map
          (invocation directory paths options.emitDebugSymbols))
        done.calls = all.2.1 ∧ done.result = all.2.2.bind UnitResult.collect := by
  intro done
  cases hsources : sources.isEmpty with
  | true =>
    have hdone : done = ⟨c, disk, [], .error (.invalidInput "no source files to compile")⟩ := if_pos hsources
    rw [hdone]
    exact Or.inl ⟨rfl, _, rfl⟩
  | false =>
    rcases hprovide : c.provide disk references with ⟨staging, provided, fault | paths⟩
    · have hdone : done = ⟨staging, provided, [], .error fault⟩ := compile_of_provide_error hsources hprovide
      rw [hdone]
      exact Or.inl ⟨rfl, _, rfl⟩
    · have hcalls : done.calls = _ := compile_calls_of_provide hsources hprovide
      have hresult : done.result = _ := compile_result_of_provide hsources hprovide
      rw [hcalls, hresult]
      cases hmade : provided.makeTemporary "patchwork-out-" with
      | error fault =>
        unfold compileUnits
        rw [hmade]
        exact Or.inl ⟨rfl, _, rfl⟩
      | ok made =>
        rw [compileUnits_of_made hmade]
        exact Or.inr ⟨made.1, made.2, paths, rfl, rfl⟩

/-- A compilation that succeeds has made a call for each unit, and no call has left a diagnostic. -/
theorem compile_eq_ok {c : Compiler} {toolchain : Toolchain} {disk : Disk} {sources : List String}
    {references : References} {options : CompileOptions} {artifacts : List Artifact}
    (hcompile : (c.compile toolchain disk sources references options).result = .ok artifacts) :
    ∃ made directory paths results,
      (c.compile toolchain disk sources references options).calls = (callAll toolchain made
        ((CompileUnit.ofSources options.mode sources).map
          (invocation directory paths options.emitDebugSymbols))).2.1 ∧
      (callAll toolchain made ((CompileUnit.ofSources options.mode sources).map
        (invocation directory paths options.emitDebugSymbols))).2.2 = .ok results ∧
      UnitResult.collect results = .ok artifacts := by
  rcases c.compile_cases toolchain disk sources references options with
    ⟨_, fault, herror⟩ | ⟨made, directory, paths, hcalls, hresult⟩
  · rw [herror] at hcompile
    cases hcompile
  · rw [hresult] at hcompile
    cases hresults : (callAll toolchain made ((CompileUnit.ofSources options.mode sources).map
        (invocation directory paths options.emitDebugSymbols))).2.2 with
    | error fault =>
      rw [hresults] at hcompile
      cases hcompile
    | ok results =>
      rw [hresults] at hcompile
      exact ⟨made, directory, paths, results, hcalls, hresults, hcompile⟩

/-- Symbols stand nowhere if they were not asked for. -/
theorem symbols_eq_none_of_delivers {directory : String} {paths : List String} {units : List CompileUnit}
    {call : ToolchainCall} {artifact : Artifact} (hdelivers : call.Delivers toolchain artifact)
    (hcall : call.invocation ∈ units.map (invocation directory paths false)) :
    artifact.symbols = none := by
  obtain ⟨unit, _, hinvocation⟩ := List.mem_map.mp hcall
  cases hsymbols : artifact.symbols with
  | none => rfl
  | some bytes =>
    obtain ⟨path, houtput, _⟩ := hdelivers.symbols bytes hsymbols
    rw [← hinvocation] at houtput
    cases houtput

/-- If no call fails silently, every unit has its artifact. -/
theorem delivers_of_not_silent {mode : CompileMode} {sources : List String} {artifacts : List Artifact}
    (hsources : calls.map (·.invocation.sources) = mode.groups sources)
    (hanswers : ∀ call ∈ calls, call.succeeds toolchain = true ∨ call.FailsSilently toolchain)
    (hdeliver : List.Forall₂ (ToolchainCall.Delivers toolchain) (calls.filter (·.succeeds toolchain)) artifacts)
    (hsilent : ∀ call ∈ calls, ¬ call.FailsSilently toolchain) :
    (∀ call ∈ calls, call.succeeds toolchain = true) ∧
      List.Forall₂ (ToolchainCall.Delivers toolchain) calls artifacts ∧
      artifacts.length = (mode.groups sources).length := by
  have hsucceed : ∀ call ∈ calls, call.succeeds toolchain = true := fun call hcall =>
    (hanswers call hcall).resolve_right (hsilent call hcall)
  rw [List.filter_eq_self.mpr hsucceed] at hdeliver
  refine ⟨hsucceed, hdeliver, ?_⟩
  rw [← hdeliver.length_eq, ← hsources, List.length_map]

/-- A compilation that succeeds has called for every unit, and its artifacts are those of the calls that
    succeeded. -/
theorem compile_delivers {c : Compiler} {disk : Disk} {sources : List String} {references : References}
    {options : CompileOptions} {artifacts : List Artifact}
    (hcompile : (c.compile toolchain disk sources references options).result = .ok artifacts) :
    let calls := (c.compile toolchain disk sources references options).calls
    (∃ directory paths, calls.map (·.invocation) = (CompileUnit.ofSources options.mode sources).map
      (invocation directory paths options.emitDebugSymbols)) ∧
    calls.map (·.invocation.sources) = options.mode.groups sources ∧
    (∀ call ∈ calls, call.succeeds toolchain = true ∨ call.FailsSilently toolchain) ∧
    List.Forall₂ (ToolchainCall.Delivers toolchain) (calls.filter (·.succeeds toolchain)) artifacts := by
  intro calls
  obtain ⟨made, directory, paths, results, hcalls, hresults, hcollect⟩ := compile_eq_ok hcompile
  obtain ⟨hinvocations, hbecome⟩ := callAll_becomes hresults
  obtain ⟨hdiagnostics, rfl⟩ := UnitResult.collect_eq_ok hcollect
  obtain ⟨hanswers, hdeliver⟩ := forall₂_delivers hbecome hdiagnostics
  rw [← hcalls] at hinvocations hanswers hdeliver
  refine ⟨⟨directory, paths, hinvocations⟩, ?_, hanswers, hdeliver⟩
  have hmapped := congrArg (List.map Invocation.sources) hinvocations
  rw [List.map_map, List.map_map] at hmapped
  exact hmapped.trans (CompileUnit.sources_ofSources options.mode sources)

/-- In a compilation that succeeds, every call has succeeded or has failed without a word. The artifacts
    are those of the calls that succeeded, in order, each with the bytes that stood at the output of its
    own call, and with symbols only where they were asked for. So there is one artifact for each unit
    exactly if no call has failed without a word. -/
theorem compile_complete_iff {c : Compiler} {toolchain : Toolchain} {disk : Disk}
    {sources : List String} {references : References} {options : CompileOptions}
    {artifacts : List Artifact}
    (hcompile : (c.compile toolchain disk sources references options).result = .ok artifacts) :
    let calls := (c.compile toolchain disk sources references options).calls
    calls.map (·.invocation.sources) = options.mode.groups sources ∧
    (∀ call ∈ calls, call.succeeds toolchain = true ∨ call.FailsSilently toolchain) ∧
    List.Forall₂ (ToolchainCall.Delivers toolchain) (calls.filter (·.succeeds toolchain)) artifacts ∧
    (options.emitDebugSymbols = false → ∀ artifact ∈ artifacts, artifact.symbols = none) ∧
    ((∀ call ∈ calls, ¬ call.FailsSilently toolchain) ↔
      (∀ call ∈ calls, call.succeeds toolchain = true) ∧
      List.Forall₂ (ToolchainCall.Delivers toolchain) calls artifacts ∧
      artifacts.length = match options.mode with
        | .combined => 1
        | .perSource => sources.length) := by
  intro calls
  obtain ⟨⟨directory, paths, hinvocations⟩, hsources, hanswers, hdeliver⟩ := compile_delivers hcompile
  refine ⟨hsources, hanswers, hdeliver, fun hsymbols artifact hartifact => ?_, ?_⟩
  · obtain ⟨n, rfl⟩ := List.mem_iff_get.mp hartifact
    have hn := Nat.lt_of_lt_of_eq n.isLt hdeliver.length_eq.symm
    have hcall := List.mem_map_of_mem (f := ToolchainCall.invocation)
      (List.mem_filter.mp (List.get_mem _ ⟨n, hn⟩)).1
    rw [hinvocations, hsymbols] at hcall
    exact symbols_eq_none_of_delivers (hdeliver.get hn n.isLt) hcall
  · refine ⟨fun hsilent => ?_, ?_⟩
    · obtain ⟨hsucceed, hall, hlength⟩ := delivers_of_not_silent hsources hanswers hdeliver hsilent
      exact ⟨hsucceed, hall, hlength.trans (options.mode.length_groups sources)⟩
    · rintro ⟨hsucceed, _, _⟩ call hcall hsilent
      have hfailure := ToolchainCall.succeeds_of_answer hsilent
      rw [hsucceed call hcall] at hfailure
      cases hfailure

/-- Two sources that are compiled one by one, by a toolchain that writes an empty module for each. -/
theorem compile_complete_two_sources :
    let disk : Disk := ⟨[("tmp", .directory [])], [], 0⟩
    let module := Stream.moduleMagic ++ [1, 0, 2, 0, 0, 0, 123, 125]
    let toolchain : Toolchain := fun disk i =>
      match disk.write i.output module with
      | .ok disk => (disk, .ok ⟨true, []⟩)
      | .error fault => (disk, .error (.io fault))
    let done := (ofReuse false).compile toolchain disk ["a.cs", "b/a.cs"] ⟨[], []⟩ ⟨.perSource, false⟩
    let artifacts : List Artifact := [⟨"a", module, none⟩, ⟨"a-2", module, none⟩]
    done.result = .ok artifacts ∧
      List.Forall₂ (ToolchainCall.Delivers toolchain) done.calls artifacts := by
  intro disk module toolchain done artifacts
  have hresult : done.result = .ok artifacts := by decide +kernel
  have hanswers : ∀ call ∈ done.calls, call.succeeds toolchain = true := by decide +kernel
  obtain ⟨_, _, _, _, hcomplete⟩ := compile_complete_iff hresult
  refine ⟨hresult, (hcomplete.mp fun call hcall hsilent => ?_).2.1⟩
  have hfailure := ToolchainCall.succeeds_of_answer hsilent
  rw [hanswers call hcall] at hfailure
  cases hfailure

/-- A toolchain that fails without a diagnostic: the compilation succeeds and has made nothing. -/
theorem silent_failure_compiles :
    let toolchain : Toolchain := fun disk _ => (disk, .ok ⟨false, []⟩)
    let done := (ofReuse false).compile toolchain ⟨[("tmp", .directory [])], [], 0⟩ ["a.cs"] ⟨[], []⟩
      .forAnalysis
    done.result = .ok [] ∧ done.calls.map (·.invocation.sources) = [["a.cs"]] ∧
      ∀ call ∈ done.calls, call.succeeds toolchain = false := by
  decide +kernel

end Compiler

/-! External compilers. Whatever programs a machine has, the compiler is never silent about a failure. -/

namespace ExternalCompiler

variable (c : ExternalCompiler) (programs : Programs)

theorem answerOf_says_why (r : ProgramResult) : answerOf r ≠ ⟨false, []⟩ := by
  rw [answerOf]
  dsimp only
  split
  · next hdone =>
    intro hsilent
    obtain ⟨hsuccess, hfound⟩ := ToolchainAnswer.mk.inj hsilent
    rw [hsuccess, hfound] at hdone
    cases hdone
  · exact nofun

theorem not_failsSilently (call : ToolchainCall) : ¬ call.FailsSilently (c.toolchain programs) := by
  rw [ToolchainCall.FailsSilently, toolchain]
  split
  · exact fun hsilent => answerOf_says_why _ (Except.ok.inj hsilent)
  · exact nofun

/-- The only fault of an external compiler is that there is no program to start. -/
theorem toolchain_fault {disk : Disk} {i : Invocation} {fault : Fault}
    (h : (c.toolchain programs disk i).2 = .error fault) :
    ∃ reason, fault = .toolchainUnavailable (c.program ++ ": " ++ reason) := by
  rw [toolchain] at h
  split at h
  · cases h
  · next io _ =>
    cases h
    exact ⟨io.message, rfl⟩

/-- With an external compiler, a compilation that succeeds has one artifact for each unit, as its call has made it,
    whatever programs there are. -/
theorem compile_delivers_all {compiler : Compiler} {disk : Disk} {sources : List String} {references : References}
    {options : CompileOptions} {artifacts : List Artifact}
    (hcompile : (compiler.compile (c.toolchain programs) disk sources references options).result = .ok artifacts) :
    let calls := (compiler.compile (c.toolchain programs) disk sources references options).calls
    calls.map (·.invocation.sources) = options.mode.groups sources ∧
      List.Forall₂ (ToolchainCall.Delivers (c.toolchain programs)) calls artifacts ∧
      artifacts.length = (options.mode.groups sources).length := by
  intro calls
  obtain ⟨_, hsources, hanswers, hdeliver⟩ := Compiler.compile_delivers hcompile
  have hsilent : ∀ call ∈ calls, ¬ call.FailsSilently (c.toolchain programs) := fun call _ =>
    c.not_failsSilently programs call
  obtain ⟨_, hall, hlength⟩ := Compiler.delivers_of_not_silent hsources hanswers hdeliver hsilent
  exact ⟨hsources, hall, hlength⟩

end ExternalCompiler

end PluginHost
