import Mathlib.Data.List.Basic
import PluginHost.Compliance.Verify
import PluginHost.Proofs.Compile.Artifacts
/-!
Verification fails closed.

A report either shows the analysis of one artifact by every tier of the policy, or says why there was
nothing to analyze and leaves every tier untested. No way in which a plugin may fail to be compiled, read
or decoded lets it pass a tier.
-/

namespace PluginHost

/-- Both streams of an artifact hold what they should. -/
def Artifact.Decodes (a : Artifact) : Prop :=
  (∃ image, a.image = .ok image) ∧ ∃ symbols, a.debugSymbols = .ok symbols

namespace ComplianceReport

/-- A report on an artifact that was tested with every tier of a policy. -/
structure Tested (policy : Policy) (artifact : Artifact) (r : ComplianceReport) : Prop where
  fingerprint : r.fingerprint = some artifact.fingerprint
  compileErrors : r.compileErrors = []
  loadError : r.loadError = none
  tested : ∀ t ∈ r.tiers, t.tested = true
  /-- What a tier says does not depend on the others: each analyzes the artifact on its own. -/
  analyses : r.tiers.map Except.ok = policy.tiers.map fun t => Analysis.ofArtifact t artifact

/-- A report that passes nothing and says why: for errors in the sources or for one other fault. -/
structure FailedClosed (r : ComplianceReport) : Prop where
  untested : ∀ t ∈ r.tiers, t.tested = false ∧ t.passed = false ∧ t.violations = []
  highestPassedTier : r.highestPassedTier = none
  reason : (r.compileErrors ≠ [] ∧ r.loadError = none) ∨
    (r.compileErrors = [] ∧ ∃ message, r.loadError = some message)

/-- Tiers that were not tested are not passed, so only the reason has to be given. -/
theorem FailedClosed.of_untested {r : ComplianceReport} {policy : Policy}
    (htiers : r.tiers = policy.tiers.map fun t => .untested t.rank)
    (hreason : (r.compileErrors ≠ [] ∧ r.loadError = none) ∨
      (r.compileErrors = [] ∧ ∃ message, r.loadError = some message)) : r.FailedClosed := by
  have huntested : ∀ t ∈ r.tiers, t.tested = false ∧ t.passed = false ∧ t.violations = [] := by
    intro t ht
    rw [htiers] at ht
    obtain ⟨tier, _, rfl⟩ := List.mem_map.mp ht
    exact ⟨rfl, rfl, rfl⟩
  refine ⟨huntested, ?_, hreason⟩
  have hnone : (r.tiers.filter fun t => t.tested && t.passed) = [] := by
    rw [List.filter_eq_nil_iff]
    intro t ht
    simp [(huntested t ht).1]
  rw [ComplianceReport.highestPassedTier, hnone]
  rfl

theorem ofFault_failedClosed {policy : Policy} {identity : String} {fault : Fault}
    (htelling : fault.Telling) : (ofFault policy identity fault).FailedClosed := by
  cases fault with
  | compileFailed diagnostics => exact .of_untested rfl (.inl ⟨htelling, rfl⟩)
  | _ => exact .of_untested rfl (.inr ⟨rfl, _, rfl⟩)

theorem ofArtifact_tested {policy : Policy} {identity : String} {artifact : Artifact}
    (hdecodes : artifact.Decodes) : (ofArtifact policy identity artifact).Tested policy artifact := by
  obtain ⟨⟨image, himage⟩, symbols, hsymbols⟩ := hdecodes
  have hanalysis : ∀ tier, Analysis.ofArtifact tier artifact =
      .ok (Analysis.ofImage tier image symbols) := by
    intro tier
    rw [Analysis.ofArtifact, himage, hsymbols]
    rfl
  simp only [ofArtifact, himage, hsymbols]
  refine ⟨rfl, rfl, rfl, ?_, ?_⟩
  · intro t ht
    obtain ⟨tier, _, rfl⟩ := List.mem_map.mp ht
    rfl
  · rw [List.map_map]
    exact List.map_congr_left fun tier _ => (hanalysis tier).symm

/-- An artifact with a stream that cannot be read is not tested with any tier, though the other stream
    may be a good one. -/
theorem ofArtifact_failedClosed {policy : Policy} {identity : String} {artifact : Artifact}
    (hdecodes : ¬ artifact.Decodes) : (ofArtifact policy identity artifact).FailedClosed := by
  cases himage : artifact.image with
  | error fault =>
    simp only [ofArtifact, himage]
    exact .of_untested rfl (.inr ⟨rfl, _, rfl⟩)
  | ok image =>
    cases hsymbols : artifact.debugSymbols with
    | error fault =>
      simp only [ofArtifact, himage, hsymbols]
      exact .of_untested rfl (.inr ⟨rfl, _, rfl⟩)
    | ok symbols => exact absurd ⟨⟨image, himage⟩, symbols, hsymbols⟩ hdecodes

/-- A report has one entry for every tier, in the order of the policy. -/
theorem ofResult_ranks (policy : Policy) (identity : String) (obtained : Except Fault Artifact) :
    (ofResult policy identity obtained).tiers.map (·.tier) = policy.tiers.map (·.rank) := by
  have huntested : (untested policy identity).tiers.map (·.tier) = policy.tiers.map (·.rank) := by
    rw [untested, List.map_map]
    rfl
  cases obtained with
  | error fault => cases fault <;> exact huntested
  | ok artifact =>
    simp only [ofResult, ofArtifact]
    split
    · rw [List.map_map]
      rfl
    · exact huntested
    · exact huntested

end ComplianceReport

namespace Verifier

variable {v : Verifier} {compiler : Compiler} {disk : Disk} {plugin : Submission}
  {artifact : Artifact}

/-- The artifact of a plugin is the module on disk, or the one that its sources are compiled to. -/
def Obtains (v : Verifier) (compiler : Compiler) (disk : Disk) (plugin : Submission)
    (artifact : Artifact) : Prop :=
  match plugin with
  | .binary _ path => Artifact.load disk path = .ok artifact
  | .source _ files =>
    (compiler.compile v.toolchain disk files v.references .forAnalysis).result = .ok [artifact]

theorem obtain_eq_ok_iff :
    (v.obtain compiler disk plugin).result = .ok artifact ↔ v.Obtains compiler disk plugin artifact := by
  cases plugin with
  | binary identity path => exact Iff.rfl
  | source identity files =>
    simp only [obtain, Obtains]
    cases hcompile : (compiler.compile v.toolchain disk files v.references .forAnalysis).result with
    | error fault => simp [Except.bind]
    | ok artifacts =>
      -- All sources make one unit, so the last artifact is the only one.
      have hlength := Compiler.length_le_of_compile_eq_ok hcompile
      rw [CompileOptions.forAnalysis, CompileUnit.length_ofSources_combined] at hlength
      rcases artifacts with _ | ⟨only, _ | ⟨second, rest⟩⟩
      · simp [Except.bind]
      · simp [Except.bind]
      · simp only [List.length_cons] at hlength
        omega

theorem obtain_faults (htoolchain : ∀ disk i, (v.toolchain disk i).2 ≠ .error (.compileFailed [])) :
    Fault.Only Fault.Telling (v.obtain compiler disk plugin).result := by
  cases plugin with
  | binary identity path => exact Artifact.load_faults disk path
  | source identity files =>
    refine Fault.Only.bind (Compiler.compile_faults htoolchain _ _ _ _ _) fun artifacts _ => ?_
    cases artifacts.getLast? with
    | some artifact => exact Fault.only_ok _
    | none => exact Fault.only_error.mpr trivial

/-- Whatever the toolchain does, a report has an entry for every tier. Either there is one artifact and
    every entry is its analysis, or nothing was tested, nothing has passed, and there is one reason. -/
theorem verify_fails_closed (v : Verifier) (compiler : Compiler) (disk : Disk) (plugin : Submission)
    (htoolchain : ∀ disk i, (v.toolchain disk i).2 ≠ .error (.compileFailed [])) :
    let report := (v.verify compiler disk plugin).result
    report.tiers.map (·.tier) = v.policy.tiers.map (·.rank) ∧
    ((∃ artifact, v.Obtains compiler disk plugin artifact ∧ artifact.Decodes ∧
        report.Tested v.policy artifact) ∨
      ((∀ artifact, v.Obtains compiler disk plugin artifact → ¬ artifact.Decodes) ∧
        report.FailedClosed)) := by
  refine ⟨ComplianceReport.ofResult_ranks _ _ _, ?_⟩
  simp only [verify, ← obtain_eq_ok_iff]
  cases hobtain : (v.obtain compiler disk plugin).result with
  | error fault =>
    have htelling := obtain_faults htoolchain _ hobtain
    exact Or.inr ⟨nofun, ComplianceReport.ofFault_failedClosed htelling⟩
  | ok artifact =>
    by_cases hdecodes : artifact.Decodes
    · exact Or.inl ⟨artifact, rfl, hdecodes, ComplianceReport.ofArtifact_tested hdecodes⟩
    · refine Or.inr ⟨?_, ComplianceReport.ofArtifact_failedClosed hdecodes⟩
      rintro other heq
      cases heq
      exact hdecodes

end Verifier

namespace Workshop

/-- A plugin with a local variable of some type. -/
def imageWith (localType : TypeRef) : Image :=
  let method : MethodDef := ⟨0, "OnLoad", .named "System" "Void", [], [], [⟨0, localType⟩], []⟩
  ⟨"p", [⟨"p", [⟨"Mods", "Plugin", some (.named "Patchwork" "Plugin"), false, false, [], [], [method]⟩]⟩]⟩

def artifactWith (localType : TypeRef) : Artifact :=
  (Artifact.ofImage (imageWith localType) none).toOption.getD default

/-- A plugin that starts processes, which only the first tier allows. -/
def artifact : Artifact := artifactWith (.named "System.Diagnostics" "Process")

def disk : Disk := ⟨[("p.cs", .file []), ("tmp", .directory [])], [], 0⟩

def plugin : Submission := .source "p" ["p.cs"]

/-- A toolchain that is not there. -/
def missing : Toolchain := fun disk _ => (disk, .error (.toolchainUnavailable "none"))

/-- A toolchain that writes the module of the plugin, whatever the sources are. -/
def writing : Toolchain := fun disk i =>
  match disk.write i.output artifact.module with
  | .ok disk => (disk, .ok ⟨true, []⟩)
  | .error fault => (disk, .error (.io fault))

def verifier (toolchain : Toolchain) : Verifier := ⟨.reference, toolchain, ⟨[], []⟩⟩

def verification (toolchain : Toolchain) : Verification ComplianceReport :=
  (verifier toolchain).verify (.ofReuse false) disk plugin

theorem missing_telling (disk : Disk) (i : Invocation) : (missing disk i).2 ≠ .error (.compileFailed []) := nofun

theorem writing_telling (disk : Disk) (i : Invocation) : (writing disk i).2 ≠ .error (.compileFailed []) := by
  rw [writing]
  split <;> exact nofun

theorem obtains_writing : (verifier writing).Obtains (.ofReuse false) disk plugin artifact := by
  rw [← Verifier.obtain_eq_ok_iff]
  decide +kernel

theorem not_obtains_missing (a : Artifact) : ¬ (verifier missing).Obtains (.ofReuse false) disk plugin a := by
  have hresult : ((verifier missing).obtain (.ofReuse false) disk plugin).result =
      .error (.toolchainUnavailable "none") := by decide +kernel
  rw [← Verifier.obtain_eq_ok_iff, hresult]
  exact nofun

theorem artifact_decodes : artifact.Decodes :=
  ⟨⟨imageWith (.named "System.Diagnostics" "Process"), by decide +kernel⟩, none, by decide +kernel⟩

/-- Both toolchains are asked to compile the source. If there is no toolchain, nothing is tested, and the report says
    why; if there is one that writes the module, each tier of the reference policy tests it. -/
theorem verify_with_and_without_toolchain :
    (∀ disk i, (missing disk i).2 ≠ .error (.compileFailed [])) ∧
      (∀ disk i, (writing disk i).2 ≠ .error (.compileFailed [])) ∧
      (verification missing).calls.map (·.invocation.sources) = [["p.cs"]] ∧
      (verification missing).result.FailedClosed ∧
      (verification writing).calls.map (·.invocation.sources) = [["p.cs"]] ∧
      (verification writing).result.Tested .reference artifact ∧
      (verification writing).result.tiers.map (·.passed) = [true, false, false, false] := by
  refine ⟨missing_telling, writing_telling, by decide +kernel, ?_, by decide +kernel, ?_, by decide +kernel⟩
  · rcases (Verifier.verify_fails_closed (verifier missing) (.ofReuse false) disk plugin missing_telling).2 with
      ⟨a, hobtains, _⟩ | ⟨_, hclosed⟩
    · exact absurd hobtains (not_obtains_missing a)
    · exact hclosed
  · rcases (Verifier.verify_fails_closed (verifier writing) (.ofReuse false) disk plugin writing_telling).2 with
      ⟨a, hobtains, _, htested⟩ | ⟨hnone, _⟩
    · have hsame : a = artifact := Except.ok.inj
        ((Verifier.obtain_eq_ok_iff.mpr hobtains).symm.trans (Verifier.obtain_eq_ok_iff.mpr obtains_writing))
      exact hsame ▸ htested
    · exact absurd artifact_decodes (hnone artifact obtains_writing)

end Workshop

end PluginHost
