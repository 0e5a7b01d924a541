import PluginHost.Cli.Execution
import PluginHost.Proofs.Cli.Collection
import PluginHost.Proofs.Compliance.FailClosed
import PluginHost.Proofs.Disk.Entries
import PluginHost.Proofs.Orchestration.Loading
import PluginHost.Proofs.Policy.Gradation
/-!
The tier that a verification requires.

Every plugin that is collected is examined, and its report has a result for the required tier. The command
succeeds if the tier found nothing in any of them; a plugin that was not tested is named as one that has
violations is.
-/

namespace PluginHost

/-- The verification of one plugin, in the state that those before it left. -/
structure Examination where
  compiler : Compiler
  disk : Disk
  plugin : Submission

/-- What a report shows of a tier keeps the plugin from passing it: it was not tested, or it has violations. -/
def ComplianceReport.fallsShort (rank : UInt8) (r : ComplianceReport) : Bool :=
  (r.tier? rank).any fun t => !t.tested || !t.violations.isEmpty

/-- A tier is found in a report as in the policy that the report was made with. -/
theorem Policy.find?_map_tiers {policy : Policy} {rank : UInt8} {tier : Tier} {f : Tier → TierResult}
    (hrank : ∀ t, (f t).tier = t.rank) (htier : policy.tier rank = .ok tier) :
    ((policy.tiers.map f).find? fun t => t.tier = rank) = some (f tier) := by
  rw [List.find?_map]
  simp only [Function.comp_def, hrank]
  rw [Policy.tier] at htier
  cases hfind : policy.tiers.find? fun t => t.rank = rank with
  | none => simp [hfind] at htier
  | some found =>
    rw [hfind] at htier
    cases htier
    rfl

theorem ComplianceReport.tiers_ofArtifact_of_not_decodes {policy : Policy} {identity : String}
    {artifact : Artifact} (hdecodes : ¬ artifact.Decodes) :
    (ofArtifact policy identity artifact).tiers = policy.tiers.map fun t => .untested t.rank := by
  rw [ofArtifact]
  split
  · next image symbols himage hsymbols => exact absurd ⟨⟨image, himage⟩, symbols, hsymbols⟩ hdecodes
  · rfl
  · rfl

theorem ComplianceReport.exists_foldl_highest (ranks : List UInt8) (best : UInt8) :
    ∃ h, ranks.foldl highest (some best) = some h := by
  induction ranks generalizing best with
  | nil => exact ⟨best, rfl⟩
  | cons rank rest ih => exact ih _

theorem ComplianceReport.le_highestPassedTier {r : ComplianceReport} {t : TierResult} (ht : t ∈ r.tiers)
    (htested : t.tested = true) (hpassed : t.passed = true) :
    ∃ h, r.highestPassedTier = some h ∧ t.tier ≤ h := by
  have hmem : t.tier ∈ (r.tiers.filter fun t => t.tested && t.passed).map (·.tier) :=
    List.mem_map_of_mem (List.mem_filter.mpr ⟨ht, by rw [htested, hpassed]; rfl⟩)
  have hsome : ∃ h, r.highestPassedTier = some h := by
    rw [highestPassedTier]
    cases hranks : (r.tiers.filter fun t => t.tested && t.passed).map (·.tier) with
    | nil => exact absurd (hranks ▸ hmem) List.not_mem_nil
    | cons rank rest => exact exists_foldl_highest rest rank
  obtain ⟨h, hhighest⟩ := hsome
  exact ⟨h, hhighest, (of_highestPassedTier hhighest).2 t ht htested hpassed⟩

namespace Verifier

def report (v : Verifier) (e : Examination) : ComplianceReport := (v.verify e.compiler e.disk e.plugin).result

/-- The examinations of several plugins, each with the compiler and the disk as the one before left them. -/
def examinations (v : Verifier) : Compiler → Disk → List Submission → List Examination
  | _, _, [] => []
  | compiler, disk, plugin :: rest =>
    let first := v.verify compiler disk plugin
    ⟨compiler, disk, plugin⟩ :: examinations v first.compiler first.disk rest

/-- The plugin is compiled or loaded, what comes of it can be decoded, and the tier finds no violation in it. -/
def Clears (v : Verifier) (tier : Tier) (e : Examination) : Prop :=
  ∃ artifact image symbols, v.Obtains e.compiler e.disk e.plugin artifact ∧ artifact.image = .ok image ∧
    artifact.debugSymbols = .ok symbols ∧ Analysis.violations tier image symbols = []

/-- No plugin is dropped, and none is examined twice. -/
theorem plugins_examinations (v : Verifier) (compiler : Compiler) (disk : Disk) (plugins : List Submission) :
    (v.examinations compiler disk plugins).map (·.plugin) = plugins := by
  induction plugins generalizing compiler disk with
  | nil => rfl
  | cons plugin rest ih => rw [examinations, List.map_cons, ih]

theorem verifyAll_result (v : Verifier) (compiler : Compiler) (disk : Disk) (plugins : List Submission) :
    (v.verifyAll compiler disk plugins).result = (v.examinations compiler disk plugins).map v.report := by
  induction plugins generalizing compiler disk with
  | nil => rfl
  | cons plugin rest ih =>
    rw [verifyAll, examinations, List.map_cons, ← ih]
    rfl

theorem identity_report (v : Verifier) (e : Examination) : (v.report e).identity = e.plugin.identity := by
  simp only [report, verify]
  cases (v.obtain e.compiler e.disk e.plugin).result with
  | error fault => cases fault <;> rfl
  | ok artifact =>
    simp only [ComplianceReport.ofResult, ComplianceReport.ofArtifact]
    split <;> rfl

variable {v : Verifier} {tier : Tier} {rank : UInt8}

/-- The result for a tier of the policy is its own analysis of the plugin, or that nothing was tested. -/
theorem tier?_report (htier : v.policy.tier rank = .ok tier) (e : Examination) :
    (∃ artifact image symbols, v.Obtains e.compiler e.disk e.plugin artifact ∧ artifact.image = .ok image ∧
        artifact.debugSymbols = .ok symbols ∧
        (v.report e).tier? rank = some (Analysis.ofImage tier image symbols)) ∨
      (∀ artifact, v.Obtains e.compiler e.disk e.plugin artifact → ¬ artifact.Decodes) ∧
        (v.report e).tier? rank = some (.untested tier.rank) := by
  have huntested := Policy.find?_map_tiers (f := fun t => .untested t.rank) (fun _ => rfl) htier
  simp only [← obtain_eq_ok_iff, report, verify]
  cases (v.obtain e.compiler e.disk e.plugin).result with
  | error fault =>
    refine Or.inr ⟨?_, ?_⟩
    · rintro _ ⟨⟩
    · cases fault <;> exact huntested
  | ok artifact =>
    by_cases hdecodes : artifact.Decodes
    · obtain ⟨⟨image, himage⟩, symbols, hsymbols⟩ := hdecodes
      refine Or.inl ⟨artifact, image, symbols, rfl, himage, hsymbols, ?_⟩
      simp only [ComplianceReport.ofResult, ComplianceReport.ofArtifact, himage, hsymbols]
      exact Policy.find?_map_tiers (fun _ => rfl) htier
    · refine Or.inr ⟨?_, ?_⟩
      · rintro _ ⟨⟩
        exact hdecodes
      · rwa [ComplianceReport.ofResult, ComplianceReport.tier?,
          ComplianceReport.tiers_ofArtifact_of_not_decodes hdecodes]

/-- Exactly the plugins that the tier does not clear fall short of it. -/
theorem fallsShort_report_iff (htier : v.policy.tier rank = .ok tier) (e : Examination) :
    (v.report e).fallsShort rank = true ↔ ¬ v.Clears tier e := by
  rw [ComplianceReport.fallsShort]
  obtain ⟨artifact, image, symbols, hobtains, himage, hsymbols, hresult⟩ | ⟨hnone, hresult⟩ :=
    tier?_report htier e
  · -- There is one artifact to obtain, so what it holds is what `Clears` speaks of.
    have hclears : v.Clears tier e ↔ Analysis.violations tier image symbols = [] := by
      constructor
      · rintro ⟨other, otherImage, otherSymbols, hother, hi, hs, hviolations⟩
        cases (obtain_eq_ok_iff.mpr hobtains).symm.trans (obtain_eq_ok_iff.mpr hother)
        cases himage.symm.trans hi
        cases hsymbols.symm.trans hs
        exact hviolations
      · exact fun hviolations => ⟨artifact, image, symbols, hobtains, himage, hsymbols, hviolations⟩
    rw [hresult, hclears]
    simp [Analysis.ofImage, TierResult.ofViolations]
  · have hshort : ¬ v.Clears tier e := by
      rintro ⟨artifact, image, symbols, hobtains, himage, hsymbols, _⟩
      exact hnone artifact hobtains ⟨⟨image, himage⟩, symbols, hsymbols⟩
    rw [hresult]
    simp [TierResult.untested, hshort]

/-- A tier is passed by the plugins that it clears. -/
theorem passes_report (htier : v.policy.tier rank = .ok tier) (e : Examination) :
    Cli.passes rank (v.report e) = !(v.report e).fallsShort rank := by
  rw [Cli.passes, ComplianceReport.fallsShort]
  obtain ⟨_, image, symbols, _, _, _, hresult⟩ | ⟨_, hresult⟩ := tier?_report htier e
  · simp [hresult, Analysis.ofImage, TierResult.ofViolations]
  · simp [hresult, TierResult.untested]

/-- A plugin that a tier clears has a highest passed tier, which is of that rank or a higher one. -/
theorem Clears.le_highestPassedTier (htier : v.policy.tier rank = .ok tier) {e : Examination}
    (h : v.Clears tier e) : ∃ highest, (v.report e).highestPassedTier = some highest ∧ rank ≤ highest := by
  have hpasses : Cli.passes rank (v.report e) = true := by
    rw [passes_report htier, Bool.not_eq_true', ← Bool.not_eq_true, fallsShort_report_iff htier, not_not]
    exact h
  obtain ⟨_, image, symbols, _, _, _, hresult⟩ | ⟨_, hresult⟩ := tier?_report htier e
  · rw [Cli.passes, hresult, Option.any_some] at hpasses
    have hrank : (Analysis.ofImage tier image symbols).tier = rank := by simpa using List.find?_some hresult
    exact hrank ▸ ComplianceReport.le_highestPassedTier (List.mem_of_find?_eq_some hresult) rfl hpasses
  · rw [Cli.passes, hresult] at hpasses
    cases hpasses

end Verifier

namespace Cli

/-- The root that the identities of plugins are relative to. -/
def identityRoot (around : Surroundings) (s : Settings) (o : VerifyOptions) : Option String :=
  o.root.or (s.plugins.sourceDirectory around.environment).toOption

variable {around : Surroundings} {disk : Disk} {o : VerifyOptions} {plan : VerifyPlan} {rank : UInt8}

/-- A verification is planned if the settings and the policy can be loaded, the policy has the required tier,
    and every path leads to something. The plugins are those of the files that are collected. -/
theorem planVerify_eq_ok_iff (hrequired : o.requiredTier = some rank) :
    planVerify around disk o = .ok plan ↔ ∃ s, loadSettings around disk = .ok s ∧
      ∃ policy, loadPolicy disk s o.policy = .ok policy ∧ (∃ tier, policy.tier rank = .ok tier) ∧
      ∃ files, collect disk o.paths = .ok files ∧
        plan = ⟨⟨policy, toolchainOf around s, referencesOf s o.references⟩, compilerOf s,
          files.map (Submission.ofPath (identityRoot around s o))⟩ := by
  have hknown : ∀ policy : Policy, (∃ u, discard ((policy.tier rank).mapError CommandFault.core) = .ok u) ↔
      ∃ tier, policy.tier rank = .ok tier := by
    intro policy
    cases policy.tier rank <;> simp [discard, Functor.mapConst, Except.map, Except.mapError]
  simp only [planVerify, hrequired, bind_eq_ok_iff, mapError_eq_ok_iff, exists_and_right, hknown, pure,
    Except.pure, Except.ok.injEq, identityRoot, eq_comm (a := plan)]

/-- The examinations of the plugins that a verification has planned. -/
def VerifyPlan.examinations (plan : VerifyPlan) (disk : Disk) : List Examination :=
  plan.verifier.examinations plan.compiler disk plan.plugins

/-- The plugins that fall short of a tier, in order. -/
def VerifyPlan.below (plan : VerifyPlan) (disk : Disk) (rank : UInt8) : List Examination :=
  (plan.examinations disk).filter fun e => (plan.verifier.report e).fallsShort rank

/-- The command succeeds if no plugin falls short, and else it names those that do. -/
theorem verify_result {tier : Tier} (hrequired : o.requiredTier = some rank)
    (hplan : planVerify around disk o = .ok plan) (htier : plan.verifier.policy.tier rank = .ok tier)
    (c : CommandLine) : (verify around disk c o).result =
      if plan.below disk rank = [] then .ok ()
      else .error (.belowTier rank ((plan.below disk rank).map fun e => e.plugin.identity)) := by
  have hbelow : ((plan.examinations disk).map plan.verifier.report).filter (fun r => !passes rank r) =
      (plan.below disk rank).map plan.verifier.report := by
    rw [List.filter_map, VerifyPlan.below]
    simp only [Function.comp_def, Verifier.passes_report htier, Bool.not_not]
  simp only [verify, hplan, Verifier.verifyAll_result, requireTier, hrequired]
  rw [← VerifyPlan.examinations, hbelow]
  cases plan.below disk rank with
  | nil => rfl
  | cons e rest => simp [Verifier.identity_report]

/-- No plugin falls short exactly if all are cleared. -/
theorem verify_succeeds_iff {tier : Tier} (hrequired : o.requiredTier = some rank)
    (hplan : planVerify around disk o = .ok plan) (htier : plan.verifier.policy.tier rank = .ok tier)
    (c : CommandLine) : (verify around disk c o).result = .ok () ↔
      ∀ e ∈ plan.examinations disk, plan.verifier.Clears tier e := by
  have hnone : plan.below disk rank = [] ↔ ∀ e ∈ plan.examinations disk, plan.verifier.Clears tier e := by
    simp only [VerifyPlan.below, List.filter_eq_nil_iff, Verifier.fallsShort_report_iff htier, not_not]
  rw [verify_result hrequired hplan htier, ← hnone]
  split
  · next hbelow => simp only [hbelow]
  · next hbelow => simp only [hbelow, reduceCtorEq]

/-- What is printed about plugins that fall short: how many there are, and the names of all of them. -/
theorem errors_of_belowTier {e : Execution} {identities : List String} (hdiagnostics : e.diagnostics = [])
    (hresult : e.result = .error (.belowTier rank identities)) :
    e.errors = "Error: " ++ number identities.length ++ " plugin(s) did not pass tier " ++ number rank.toNat ++ ": " ++
      ", ".intercalate identities ++ "\n" := by
  have hmessage : (CommandFault.belowTier rank identities).message = number identities.length ++
      " plugin(s) did not pass tier " ++ number rank.toNat ++ ": " ++ ", ".intercalate identities := rfl
  have hnone : lines [] = "" := rfl
  rw [Execution.errors, hdiagnostics, hresult]
  simp only [List.map_nil, hnone, hmessage, String.empty_append, String.append_assoc]

theorem diagnostics_verify (around : Surroundings) (disk : Disk) (c : CommandLine) (o : VerifyOptions) :
    (verify around disk c o).diagnostics = [] := by
  rw [verify]
  cases planVerify around disk o <;> rfl

/-- With a required tier a verification succeeds exactly if the policy has that tier and it clears every plugin
    that is collected. Each of them then has a highest passed tier of that rank or above. Otherwise the plugins
    that fall short are named, in the result and in what is printed: all of them and no others, in the order in
    which they were collected. -/
theorem verify_required_tier (around : Surroundings) (disk : Disk) (c : CommandLine) (o : VerifyOptions)
    (rank : UInt8) (hrequired : o.requiredTier = some rank) :
    let done := verify around disk c o
    let result := done.result
    (result = .ok () ↔ ∃ plan tier, planVerify around disk o = .ok plan ∧
        plan.verifier.policy.tier rank = .ok tier ∧
        ∀ e ∈ plan.examinations disk, plan.verifier.Clears tier e) ∧
    ∀ plan, planVerify around disk o = .ok plan →
      (∃ s files, loadSettings around disk = .ok s ∧ loadPolicy disk s o.policy = .ok plan.verifier.policy ∧
        collect disk o.paths = .ok files ∧
        (∀ file, file ∈ files ↔ ∃ path ∈ o.paths, StandsFor disk path file) ∧
        (plan.examinations disk).map (·.plugin) = files.map (Submission.ofPath (identityRoot around s o))) ∧
      (result = .ok () → ∀ e ∈ plan.examinations disk, ∃ highest,
        (plan.verifier.report e).highestPassedTier = some highest ∧ rank ≤ highest) ∧
      (plan.below disk rank ≠ [] →
        let named := (plan.below disk rank).map fun e => e.plugin.identity
        result = .error (.belowTier rank named) ∧
          done.errors = "Error: " ++ number named.length ++ " plugin(s) did not pass tier " ++
            number rank.toNat ++ ": " ++ ", ".intercalate named ++ "\n") := by
  intro done result
  refine ⟨⟨fun hok => ?_, ?_⟩, fun plan hplan => ?_⟩
  · cases hplan : planVerify around disk o with
    | error fault =>
      simp only [result, done, verify, hplan] at hok
      cases hok
    | ok plan =>
      obtain ⟨s, _, policy, _, ⟨tier, htier⟩, files, _, rfl⟩ := (planVerify_eq_ok_iff hrequired).mp hplan
      exact ⟨_, tier, rfl, htier, (verify_succeeds_iff hrequired hplan htier c).mp hok⟩
  · rintro ⟨plan, tier, hplan, htier, hclears⟩
    exact (verify_succeeds_iff hrequired hplan htier c).mpr hclears
  · obtain ⟨s, hs, policy, hpolicy, ⟨tier, htier⟩, files, hfiles, heq⟩ :=
      (planVerify_eq_ok_iff hrequired).mp hplan
    have hpolicy' : plan.verifier.policy = policy := by rw [heq]
    rw [← hpolicy'] at hpolicy htier
    refine ⟨⟨s, files, hs, hpolicy, hfiles, fun file => mem_collect_iff hfiles, ?_⟩, ?_, ?_⟩
    · rw [heq]
      exact Verifier.plugins_examinations _ _ _ _
    · intro hok e he
      exact ((verify_succeeds_iff hrequired hplan htier c).mp hok e he).le_highestPassedTier htier
    · intro hbelow named
      have hresult : result = .error (.belowTier rank named) := by
        simp only [result, done, verify_result hrequired hplan htier, if_neg hbelow, named]
      exact ⟨hresult, errors_of_belowTier (diagnostics_verify around disk c o) hresult⟩

end Cli

namespace Gated

/-- The module of a plugin with a local variable of some type. -/
def moduleWith (localType : TypeRef) : List UInt8 := (Workshop.artifactWith localType).module

/-- A directory with a module that cannot be read, one that counts, one that starts processes, and a note. -/
def disk : Disk :=
  ⟨[("mods", .directory
    [("broken.pwmod", .file []), ("counter.pwmod", .file (moduleWith (.named "System" "Int32"))),
     ("notes.txt", .file []), ("shell.pwmod", .file (moduleWith (.named "System.Diagnostics" "Process")))])], [], 0⟩

def around : Cli.Surroundings := ⟨⟨[("HOME", "/home")]⟩, fun disk _ _ => (disk, .error .notFound), ""⟩

def options : Cli.VerifyOptions := ⟨["/mods"], some "/mods", none, [], some 2⟩

def plan : Cli.VerifyPlan :=
  ⟨⟨.reference, Cli.toolchainOf around .standard, Cli.referencesOf .standard []⟩, Cli.compilerOf .standard,
    [.binary "broken.pwmod" "/mods/broken.pwmod", .binary "counter.pwmod" "/mods/counter.pwmod",
     .binary "shell.pwmod" "/mods/shell.pwmod"]⟩

/-- The module that was not tested is named like the one with violations. -/
theorem verify_required_tier_of_directory :
    let done := Cli.verify around disk ⟨.verify options, .text, false⟩ options
    options.requiredTier = some 2 ∧ Cli.planVerify around disk options = .ok plan ∧
      done.result = .error (.belowTier 2 ["broken.pwmod", "shell.pwmod"]) ∧
      done.errors = "Error: 2 plugin(s) did not pass tier 2: broken.pwmod, shell.pwmod\n" := by
  intro done
  have hplan : Cli.planVerify around disk options = .ok plan :=
    (Cli.planVerify_eq_ok_iff rfl).mpr ⟨.standard, by decide +kernel, .reference, rfl, ⟨_, rfl⟩,
      ["/mods/broken.pwmod", "/mods/counter.pwmod", "/mods/shell.pwmod"], by decide +kernel, rfl⟩
  have hbelow : (plan.below disk 2).map (fun e => e.plugin.identity) = ["broken.pwmod", "shell.pwmod"] := by
    decide +kernel
  have hne : plan.below disk 2 ≠ [] := fun hnone => by simp [hnone] at hbelow
  have hgate := Cli.verify_required_tier around disk ⟨.verify options, .text, false⟩ options 2 rfl
  obtain ⟨hresult, herrors⟩ := (hgate.2 plan hplan).2.2 hne
  rw [hbelow] at hresult herrors
  refine ⟨rfl, hplan, hresult, herrors.trans ?_⟩
  decide +kernel

end Gated

end PluginHost
