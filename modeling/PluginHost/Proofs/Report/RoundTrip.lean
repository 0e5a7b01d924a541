import PluginHost.Policy.Codec
import PluginHost.Proofs.Json.Lossless
import PluginHost.Report.Aggregate
/-!
Policies and reports come back from their JSON text.

Nothing that a policy, a compliance report, the outcome of a run or a summary of it holds is lost when it is
written: absent values, lists that are left out when they are empty, tags with and without content, numbers at
their bounds and texts of any characters are all read back as they were.
-/

namespace PluginHost

open Json

/-! Policies. -/

theorem Tier.lossless : Lossless 2 record.encode record.decode :=
  Record.lossless (fun _ => ⟨⟨⟨⟨⟨⟨⟨trivial, .uint8⟩, .text⟩, .orElse .nameSet rfl⟩, .orElse .nameSet rfl⟩,
    .orElse .nameSet rfl⟩, .orElse .nameSet rfl⟩, .orElse .nameSet rfl⟩) (by decide) fun _ => rfl

theorem Policy.lossless : Lossless 4 record.encode record.decode :=
  Record.lossless (fun _ => ⟨trivial, .list Tier.lossless (by decide)⟩) (by decide) fun _ => rfl

/-! Compliance. -/

theorem ViolationReason.lossless : Lossless 0 encode decode :=
  .word fun reason => by cases reason <;> rfl

theorem Violation.lossless : Lossless 1 record.encode record.decode :=
  Record.lossless (fun _ => ⟨⟨⟨⟨trivial, .text⟩, .text⟩, .of ViolationReason.lossless (by decide)⟩, .bool⟩)
    (by decide) fun _ => rfl

theorem TierResult.lossless : Lossless 3 record.encode record.decode :=
  Record.lossless (fun _ => ⟨⟨⟨⟨trivial, .uint8⟩, .bool⟩, .bool⟩, .list Violation.lossless (by decide)⟩)
    (by decide) fun _ => rfl

theorem Diagnostic.lossless : Lossless 1 record.encode record.decode :=
  Record.lossless (fun _ => ⟨⟨⟨⟨⟨trivial, .optionText⟩, .optionUInt32⟩, .optionUInt32⟩, .optionText⟩, .text⟩)
    (by decide) fun _ => rfl

/-- A report that leaves out its compile errors has none, and one that leaves out its load error has none. -/
theorem ComplianceReport.lossless : Lossless 5 record.encode record.decode := by
  refine Record.lossless (fun report => ?_) (by decide) fun _ => rfl
  exact ⟨⟨⟨⟨⟨trivial, .text⟩, .optionText⟩,
    .omitting (.orElse (.list Diagnostic.lossless (by decide)) rfl)
      fun hempty => congrArg some (List.isEmpty_iff.mp hempty).symm⟩,
    .omitting (.orElse .optionText rfl)
      fun hnone => congrArg some (Option.isNone_iff_eq_none.mp hnone).symm⟩,
    .list TierResult.lossless (by decide)⟩

/-! Outcomes. -/

theorem FunctionName.lossless : Lossless 1 record.encode record.decode :=
  Record.lossless (fun _ => ⟨⟨⟨trivial, .text⟩, .text⟩, .text⟩) (by decide) fun _ => rfl

theorem Location.lossless : Lossless 0 encode decode :=
  .word fun location => by cases location <;> rfl

theorem Patch.lossless : Lossless 2 record.encode record.decode :=
  Record.lossless (fun _ => ⟨⟨⟨⟨trivial, .optionRecord FunctionName.lossless (by decide)⟩,
    .optionRecord FunctionName.lossless (by decide)⟩, .of Location.lossless (by decide)⟩, .optionInt32⟩)
    (by decide) fun _ => rfl

theorem Stage.lossless : Lossless 0 encode decode :=
  .word fun stage => by cases stage <;> rfl

theorem PluginState.lossless : Lossless 1 encode decode where
  recovers state := by
    cases state with
    | failed stage => exact .tagged_holds rfl (by decide) ((Stage.lossless.recovers stage).map PluginState.failed)
    | constructed | initialized | configured | prePatched | patched => exact .tagged_alone rfl (by decide)
  depth_le state := by
    cases state <;> exact Nat.le_refl 1

theorem StageFailure.lossless : Lossless 1 record.encode record.decode :=
  Record.lossless (fun _ => ⟨⟨⟨trivial, .of Stage.lossless (by decide)⟩, .text⟩, .bool⟩) (by decide) fun _ => rfl

theorem PluginInfo.lossless : Lossless 1 record.encode record.decode :=
  Record.lossless (fun _ => ⟨⟨⟨⟨trivial, .text⟩, .optionText⟩, .optionText⟩, .bool⟩) (by decide) fun _ => rfl

theorem PatchStatus.lossless : Lossless 1 encode decode where
  recovers status := by
    cases status with
    | applied | nullDescriptor => exact .tagged_alone rfl (by decide)
    | protectedNamespace ns =>
      exact .tagged_holds rfl (by decide) ((Decoder.Recovers.text ns).map PatchStatus.protectedNamespace)
    | interceptionFailed message =>
      exact .tagged_holds rfl (by decide) ((Decoder.Recovers.text message).map PatchStatus.interceptionFailed)
  depth_le status := by
    cases status <;> exact Nat.le_refl 1

theorem PatchOutcome.lossless : Lossless 3 record.encode record.decode :=
  Record.lossless (fun _ => ⟨⟨trivial, .of Patch.lossless (by decide)⟩, .of PatchStatus.lossless (by decide)⟩)
    (by decide) fun _ => rfl

theorem RuntimeRecord.lossless : Lossless 5 record.encode record.decode :=
  Record.lossless (fun _ => ⟨⟨⟨⟨⟨⟨trivial, .text⟩, .text⟩, .of PluginState.lossless (by decide)⟩,
    .optionRecord PluginInfo.lossless (by decide)⟩, .list PatchOutcome.lossless (by decide)⟩,
    .optionRecord StageFailure.lossless (by decide)⟩) (by decide) fun _ => rfl

/-! Summaries. -/

theorem FailureReason.lossless : Lossless 0 encode decode :=
  .word fun reason => by cases reason <;> rfl

theorem FailureEntry.lossless : Lossless 1 record.encode record.decode :=
  Record.lossless (fun _ => ⟨⟨trivial, .of FailureReason.lossless (by decide)⟩, .text⟩) (by decide) fun _ => rfl

theorem InstanceSummary.lossless : Lossless 3 record.encode record.decode :=
  Record.lossless (fun _ => ⟨⟨⟨⟨⟨trivial, .text⟩, .optionText⟩, .of PluginState.lossless (by decide)⟩, .uint64⟩,
    .list FailureEntry.lossless (by decide)⟩) (by decide) fun _ => rfl

theorem PluginEntry.lossless : Lossless 6 record.encode record.decode :=
  Record.lossless (fun _ => ⟨⟨trivial, .optionRecord ComplianceReport.lossless (by decide)⟩,
    .list InstanceSummary.lossless (by decide)⟩) (by decide) fun _ => rfl

/-- Every tier and policy, and every part of a report, is read back from its compact text. -/
theorem reports_and_policies_round_trip :
    RoundTrips Tier.record.encode Tier.record.decode ∧
    RoundTrips Policy.record.encode Policy.record.decode ∧
    RoundTrips Violation.record.encode Violation.record.decode ∧
    RoundTrips TierResult.record.encode TierResult.record.decode ∧
    RoundTrips Diagnostic.record.encode Diagnostic.record.decode ∧
    RoundTrips ComplianceReport.record.encode ComplianceReport.record.decode ∧
    RoundTrips PluginState.encode PluginState.decode ∧
    RoundTrips StageFailure.record.encode StageFailure.record.decode ∧
    RoundTrips Patch.record.encode Patch.record.decode ∧
    RoundTrips PatchOutcome.record.encode PatchOutcome.record.decode ∧
    RoundTrips RuntimeRecord.record.encode RuntimeRecord.record.decode ∧
    RoundTrips InstanceSummary.record.encode InstanceSummary.record.decode ∧
    RoundTrips PluginEntry.record.encode PluginEntry.record.decode :=
  ⟨Tier.lossless.roundTrips (by decide), Policy.lossless.roundTrips (by decide),
    Violation.lossless.roundTrips (by decide), TierResult.lossless.roundTrips (by decide),
    Diagnostic.lossless.roundTrips (by decide), ComplianceReport.lossless.roundTrips (by decide),
    PluginState.lossless.roundTrips (by decide), StageFailure.lossless.roundTrips (by decide),
    Patch.lossless.roundTrips (by decide), PatchOutcome.lossless.roundTrips (by decide),
    RuntimeRecord.lossless.roundTrips (by decide), InstanceSummary.lossless.roundTrips (by decide),
    PluginEntry.lossless.roundTrips (by decide)⟩

end PluginHost
