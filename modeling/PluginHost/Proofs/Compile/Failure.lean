import PluginHost.Proofs.Compile.Delivery
import PluginHost.Proofs.Compile.Tasks
/-!
What a compilation that fails has to do with the answers of its toolchain.

A call of the toolchain comes to an artifact, to a failure with diagnostics, or to a fault. Failures are put
together and the calls go on; a fault is the last word. Main statement: a compilation in which a call has reported
something fails with the reports of all its calls, in order, exactly if no call has come to a fault that leaves
them out.
-/

namespace PluginHost

namespace ToolchainCall

variable {toolchain : Toolchain} {call : ToolchainCall} {fault : Fault}

/-- What the toolchain has to say about a failure. -/
def reported (toolchain : Toolchain) (call : ToolchainCall) : List Diagnostic :=
  match (toolchain call.disk call.invocation).2 with
  | .ok ⟨false, diagnostics⟩ => diagnostics
  | _ => []

/-- A call ends a compilation: the toolchain has no answer, or it reports success and no artifact can be read. -/
def Ends (toolchain : Toolchain) (call : ToolchainCall) (fault : Fault) : Prop :=
  (toolchain call.disk call.invocation).2 = .error fault ∨
    call.succeeds toolchain = true ∧
      Compiler.artifactOf (call.left toolchain) call.invocation = .error fault

section Answer

variable {diagnostics : List Diagnostic}

theorem unitResult_of_error (h : (toolchain call.disk call.invocation).2 = .error fault) :
    call.unitResult toolchain = .error fault := by
  rw [unitResult, outcome, h, Except.bind]

theorem unitResult_of_failure (h : (toolchain call.disk call.invocation).2 = .ok ⟨false, diagnostics⟩) :
    call.unitResult toolchain = .ok (.failed diagnostics) := by
  rw [unitResult, outcome, h, Except.bind, Compiler.unitResult, if_neg Bool.false_ne_true]

theorem unitResult_of_success (h : (toolchain call.disk call.invocation).2 = .ok ⟨true, diagnostics⟩) :
    call.unitResult toolchain =
      (Compiler.artifactOf (call.left toolchain) call.invocation).map .compiled := by
  rw [unitResult, outcome, h, Except.bind, Compiler.unitResult, if_pos rfl]

end Answer

/-- A call that comes to something has reported the diagnostics of what it comes to. -/
theorem diagnostics_of_unitResult {result : UnitResult} (h : call.unitResult toolchain = .ok result) :
    result.diagnostics = call.reported toolchain := by
  rcases hanswer : (toolchain call.disk call.invocation).2 with other | ⟨_ | _, diagnostics⟩
  · rw [unitResult_of_error hanswer] at h
    cases h
  · rw [unitResult_of_failure hanswer] at h
    cases h
    rw [reported, hanswer, UnitResult.diagnostics]
  · rw [unitResult_of_success hanswer] at h
    cases hartifact : Compiler.artifactOf (call.left toolchain) call.invocation with
    | error other =>
      rw [hartifact] at h
      cases h
    | ok artifact =>
      rw [hartifact] at h
      cases h
      rw [reported, hanswer, UnitResult.diagnostics]

theorem unitResult_eq_error_iff : call.unitResult toolchain = .error fault ↔ call.Ends toolchain fault := by
  rcases hanswer : (toolchain call.disk call.invocation).2 with other | ⟨_ | _, diagnostics⟩
  · rw [unitResult_of_error hanswer]
    simp [Ends, succeeds, hanswer]
  · rw [unitResult_of_failure hanswer]
    simp [Ends, succeeds, hanswer]
  · rw [unitResult_of_success hanswer]
    cases hartifact : Compiler.artifactOf (call.left toolchain) call.invocation <;>
      simp [Ends, succeeds, hanswer, hartifact, Except.map]

end ToolchainCall

namespace Compiler

variable {c : Compiler} {toolchain : Toolchain} {disk : Disk} {fault : Fault}

/-- A call that ends a compilation is the last one, and its fault is what becomes of all. -/
theorem callAll_of_ends {invocations : List Invocation} {call : ToolchainCall}
    (hcall : call ∈ (callAll toolchain disk invocations).2.1) (hends : call.Ends toolchain fault) :
    (callAll toolchain disk invocations).2.1.getLast? = some call ∧
      (callAll toolchain disk invocations).2.2 = .error fault := by
  induction invocations generalizing disk with
  | nil => cases hcall
  | cons i rest ih =>
    have hfault := ToolchainCall.unitResult_eq_error_iff.mpr hends
    rw [callAll_cons toolchain ⟨i, disk⟩] at hcall ⊢
    dsimp only at hcall ⊢
    cases hunit : (⟨i, disk⟩ : ToolchainCall).unitResult toolchain with
    | error first =>
      rw [hunit] at hcall
      obtain rfl := List.mem_singleton.mp hcall
      rw [hunit] at hfault
      cases hfault
      exact ⟨rfl, rfl⟩
    | ok result =>
      rw [hunit] at hcall
      rcases List.mem_cons.mp hcall with rfl | hothers
      · rw [hunit] at hfault
        cases hfault
      · obtain ⟨hlast, herror⟩ := ih hothers
        refine ⟨?_, ?_⟩
        · dsimp only
          rw [List.getLast?_cons, hlast, Option.getD_some]
        · dsimp only
          rw [herror, Except.map]

/-- Without a call that ends them, calls come to results, and the diagnostics of these are what was reported, in
    order. -/
theorem callAll_of_not_ends {invocations : List Invocation}
    (hends : ∀ call ∈ (callAll toolchain disk invocations).2.1, ∀ fault, ¬ call.Ends toolchain fault) :
    ∃ results, (callAll toolchain disk invocations).2.2 = .ok results ∧
      results.flatMap UnitResult.diagnostics =
        (callAll toolchain disk invocations).2.1.flatMap (·.reported toolchain) := by
  induction invocations generalizing disk with
  | nil => exact ⟨[], rfl, rfl⟩
  | cons i rest ih =>
    rw [callAll_cons toolchain ⟨i, disk⟩] at hends ⊢
    dsimp only at hends ⊢
    cases hunit : (⟨i, disk⟩ : ToolchainCall).unitResult toolchain with
    | error first =>
      rw [hunit] at hends
      exact absurd (ToolchainCall.unitResult_eq_error_iff.mp hunit)
        (hends _ List.mem_cons_self first)
    | ok result =>
      rw [hunit] at hends
      obtain ⟨others, hothers, hreports⟩ := ih fun call hcall => hends call (List.mem_cons_of_mem _ hcall)
      refine ⟨result :: others, ?_, ?_⟩
      · dsimp only
        rw [hothers, Except.map]
      · rw [List.flatMap_cons, List.flatMap_cons, hreports,
          ToolchainCall.diagnostics_of_unitResult hunit]

section Reach

variable {sources : List String} {references : References} {options : CompileOptions}

/-- A compilation that has reached the toolchain comes to what the calls for its units come to. -/
theorem compile_of_reached {call : ToolchainCall}
    (hcall : call ∈ (c.compile toolchain disk sources references options).calls) :
    ∃ made directory paths,
      let all := callAll toolchain made ((CompileUnit.ofSources options.mode sources).map
        (invocation directory paths options.emitDebugSymbols))
      (c.compile toolchain disk sources references options).calls = all.2.1 ∧
        (c.compile toolchain disk sources references options).result =
          all.2.2.bind UnitResult.collect := by
  rcases c.compile_cases toolchain disk sources references options with ⟨hnone, _⟩ | hreached
  · rw [hnone] at hcall
    cases hcall
  · exact hreached

/-- The fault of a call that ends a compilation is what becomes of it, whatever was reported before. -/
theorem compile_of_ends {call : ToolchainCall} {fault : Fault}
    (hcall : call ∈ (c.compile toolchain disk sources references options).calls)
    (hends : call.Ends toolchain fault) :
    (c.compile toolchain disk sources references options).calls.getLast? = some call ∧
      (c.compile toolchain disk sources references options).result = .error fault := by
  obtain ⟨made, directory, paths, hcalls, hresult⟩ := compile_of_reached hcall
  rw [hcalls] at hcall
  obtain ⟨hlast, herror⟩ := callAll_of_ends hcall hends
  rw [hcalls, hresult, herror]
  exact ⟨hlast, rfl⟩

/-- With a report and no call that ends it, a compilation calls for every unit and fails with all that was
    reported. -/
theorem compile_of_not_ends
    (hreported : ∃ call ∈ (c.compile toolchain disk sources references options).calls,
      call.reported toolchain ≠ [])
    (hends : ∀ call ∈ (c.compile toolchain disk sources references options).calls,
      ∀ fault, ¬ call.Ends toolchain fault) :
    let done := c.compile toolchain disk sources references options
    done.calls.map (·.invocation.sources) = options.mode.groups sources ∧
      done.result = .error (.compileFailed (done.calls.flatMap (·.reported toolchain))) := by
  intro done
  obtain ⟨call, hcall, hreports⟩ := hreported
  obtain ⟨made, directory, paths, hcalls, hresult⟩ := compile_of_reached hcall
  rw [hcalls] at hends
  obtain ⟨results, hresults, hdiagnostics⟩ := callAll_of_not_ends hends
  have hinvocations := congrArg (List.map Invocation.sources) (callAll_becomes hresults).1
  rw [← hcalls, List.map_map, List.map_map] at hinvocations
  refine ⟨hinvocations.trans (CompileUnit.sources_ofSources options.mode sources), ?_⟩
  have hnonempty : (done.calls.flatMap (·.reported toolchain)).isEmpty = false := by
    rw [List.isEmpty_eq_false_iff]
    exact fun hnone => hreports (List.flatMap_eq_nil_iff.mp hnone call hcall)
  rw [← hcalls] at hdiagnostics
  rw [hresult, hresults]
  change UnitResult.collect results = _
  rw [UnitResult.collect, hdiagnostics]
  exact if_neg (Bool.eq_false_iff.mp hnonempty)

/-- In a compilation in which the toolchain has reported something, and in which no call comes to a fault, there
    is a call for each unit, and the compilation fails with the reports of all calls, in order. A call that comes to
    a fault is the last, and the fault is what becomes of the compilation. So the compilation tells everything that
    was reported exactly if every fault of a call tells it already. -/
theorem compile_reports {c : Compiler} {toolchain : Toolchain} {disk : Disk} {sources : List String}
    {references : References} {options : CompileOptions}
    (hreported : ∃ call ∈ (c.compile toolchain disk sources references options).calls,
      call.reported toolchain ≠ []) :
    let done := c.compile toolchain disk sources references options
    let reports := done.calls.flatMap (·.reported toolchain)
    ((∀ call ∈ done.calls, ∀ fault, ¬ call.Ends toolchain fault) →
      done.calls.map (·.invocation.sources) = options.mode.groups sources ∧
        done.result = .error (.compileFailed reports)) ∧
    (∀ call ∈ done.calls, ∀ fault, call.Ends toolchain fault →
      done.calls.getLast? = some call ∧ done.result = .error fault) ∧
    ((∃ diagnostics, done.result = .error (.compileFailed diagnostics) ∧ reports.Sublist diagnostics) ↔
      ∀ call ∈ done.calls, ∀ fault, call.Ends toolchain fault →
        ∃ diagnostics, fault = .compileFailed diagnostics ∧ reports.Sublist diagnostics) := by
  intro done reports
  have hfault : ∀ call ∈ done.calls, ∀ fault, call.Ends toolchain fault →
      done.calls.getLast? = some call ∧ done.result = .error fault :=
    fun call hcall fault hends => compile_of_ends hcall hends
  refine ⟨compile_of_not_ends hreported, hfault, ?_, ?_⟩
  · rintro ⟨diagnostics, hresult, hreports⟩ call hcall fault hends
    obtain ⟨_, herror⟩ := hfault call hcall fault hends
    rw [herror] at hresult
    cases hresult
    exact ⟨diagnostics, rfl, hreports⟩
  · intro htold
    by_cases hends : ∃ call ∈ done.calls, ∃ fault, call.Ends toolchain fault
    · obtain ⟨call, hcall, fault, hends⟩ := hends
      obtain ⟨diagnostics, rfl, hreports⟩ := htold call hcall fault hends
      exact ⟨diagnostics, (hfault call hcall _ hends).2, hreports⟩
    · push Not at hends
      exact ⟨reports, (compile_of_not_ends hreported hends).2, List.Sublist.refl _⟩

end Reach

/-- Two sources that are compiled one by one: the first fails with a diagnostic, the second is compiled. -/
theorem compile_reports_first_source :
    let disk : Disk := ⟨[("tmp", .directory [])], [], 0⟩
    let toolchain : Toolchain := fun disk i =>
      if i.unitName = "a" then (disk, .ok ⟨false, [.ofMessage "broken"]⟩)
      else match disk.write i.output (Stream.moduleMagic ++ [1, 0, 2, 0, 0, 0, 123, 125]) with
        | .ok disk => (disk, .ok ⟨true, []⟩)
        | .error fault => (disk, .error (.io fault))
    let done := (ofReuse false).compile toolchain disk ["a.cs", "b.cs"] ⟨[], []⟩ ⟨.perSource, false⟩
    (∃ call ∈ done.calls, call.reported toolchain ≠ []) ∧
      done.calls.map (·.invocation.sources) = [["a.cs"], ["b.cs"]] ∧
      done.result = .error (.compileFailed [.ofMessage "broken"]) := by
  intro disk toolchain done
  have hreported : ∃ call ∈ done.calls, call.reported toolchain ≠ [] := by decide +kernel
  have hunits : ∀ call ∈ done.calls, (call.unitResult toolchain).isOk = true := by decide +kernel
  have hends : ∀ call ∈ done.calls, ∀ fault, ¬ call.Ends toolchain fault := by
    intro call hcall fault hends
    have hunit := hunits call hcall
    rw [ToolchainCall.unitResult_eq_error_iff.mpr hends] at hunit
    cases hunit
  have hreports : done.calls.flatMap (·.reported toolchain) = [.ofMessage "broken"] := by decide +kernel
  obtain ⟨hcalls, hresult⟩ := (compile_reports hreported).1 hends
  rw [hreports] at hresult
  exact ⟨hreported, hcalls, hresult⟩

/-- Two sources that are compiled one by one: the first fails with a diagnostic, and of the second an executable of
    another system is written. The compilation ends with the fault of the second, and the diagnostic is lost. -/
theorem report_lost_to_fault :
    let disk : Disk := ⟨[("tmp", .directory [])], [], 0⟩
    let toolchain : Toolchain := fun disk i =>
      if i.unitName = "a" then (disk, .ok ⟨false, [.ofMessage "broken"]⟩)
      else match disk.write i.output peMagic with
        | .ok disk => (disk, .ok ⟨true, []⟩)
        | .error fault => (disk, .error (.io fault))
    let done := (ofReuse false).compile toolchain disk ["a.cs", "b.cs"] ⟨[], []⟩ ⟨.perSource, false⟩
    done.calls.map (·.reported toolchain) = [[.ofMessage "broken"], []] ∧
      done.result = .error (.foreignModule "b was written as a PE image") ∧
      ∀ diagnostics, done.result ≠ .error (.compileFailed diagnostics) := by
  intro disk toolchain done
  have hresult : done.result = .error (.foreignModule "b was written as a PE image") := by decide +kernel
  refine ⟨by decide +kernel, hresult, fun diagnostics hfailed => ?_⟩
  rw [hresult] at hfailed
  cases hfailed

end Compiler

end PluginHost
