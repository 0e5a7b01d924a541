import Mathlib.Data.List.Forall2
import PluginHost.Report.Aggregate
/-!
What a report tells of a run.

Two lists are folded into one map: compliance reports and the records of a run, in any mixture of
identities. Main statement: every identity of either list has an entry, an entry holds one summary for each
record of its identity, and every patch of a record is counted as applied or listed as a failure.
-/

namespace PluginHost

theorem SortedMap.mem_keys_iff {α : Type} {m : SortedMap String α} {key : String} :
    key ∈ m.keys ↔ (m.get? key).isSome := by
  simp [keys, get?, Assoc.get?]

/-- The reason for which a report lists a plugin that failed, by the stage in which it did. -/
def Stage.reason : Stage → FailureReason
  | .construction => .construction
  | .initialization => .initialization
  | .configurationLoad => .configurationLoad
  | .prePatch => .prePatch

/-- Both sides of a patch, the stub first. -/
def Patch.sides (p : Patch) : String :=
  p.stub.elim "<none>" FunctionName.display ++ " -> " ++ p.target.elim "<none>" FunctionName.display

/-- How a report lists a patch, by what became of it. An applied patch is not listed. -/
inductive PatchOutcome.ListedAs : PatchOutcome → FailureEntry → Prop
  | nullDescriptor {p : Patch} : ListedAs ⟨p, .nullDescriptor⟩ ⟨.nullDescriptor, p.sides⟩
  | protectedNamespace {p : Patch} {ns : String} :
    ListedAs ⟨p, .protectedNamespace ns⟩ ⟨.protectedNamespace, p.sides ++ " (protected: " ++ ns ++ ")"⟩
  | interceptionFailed {p : Patch} {message : String} :
    ListedAs ⟨p, .interceptionFailed message⟩ ⟨.interceptionFailure, message⟩

/-- A summary that keeps back nothing of a record. A failure of the plugin itself comes first; the patches
    that were not applied follow in order. -/
structure InstanceSummary.Summarizes (s : InstanceSummary) (r : RuntimeRecord) : Prop where
  typeName : s.typeName = r.typeName
  displayName : s.displayName = r.info.map PluginInfo.name
  state : s.state = r.state
  failures : ∃ refused : List FailureEntry,
    s.failures = (r.failure.map fun f => FailureEntry.mk f.stage.reason f.message).toList ++ refused ∧
      List.Forall₂ PatchOutcome.ListedAs (r.descriptors.filter fun o => o.status ≠ .applied) refused
  /-- Applied patches are counted in a machine word, and so the sum is right up to the size of a word. -/
  counted : s.patchesApplied + .ofNat s.failures.length =
    .ofNat (r.descriptors.length + r.failure.toList.length)
  /-- A list that fits in memory is shorter than that. -/
  accounted : r.descriptors.length < UInt64.size →
    s.patchesApplied.toNat + s.failures.length = r.descriptors.length + r.failure.toList.length

namespace PatchOutcome

theorem failure?_isSome_iff {o : PatchOutcome} : o.failure?.isSome ↔ o.status ≠ .applied := by
  rcases o with ⟨descriptor, _ | _ | ns | message⟩ <;> simp [failure?]

theorem describe_eq_sides (o : PatchOutcome) : o.describe = o.descriptor.sides := by
  rcases o with ⟨⟨_ | target, _ | stub, location, priority⟩, status⟩ <;> rfl

theorem listedAs_of_failure? {o : PatchOutcome} {e : FailureEntry} (h : o.failure? = some e) : o.ListedAs e := by
  have hsides := o.describe_eq_sides
  rcases o with ⟨p, _ | _ | ns | message⟩ <;> cases h
  · rw [hsides]
    exact .nullDescriptor
  · rw [hsides]
    exact .protectedNamespace
  · exact .interceptionFailed

/-- The listed failures are those of the patches that were not applied, one for each. -/
theorem forall₂_failures (outcomes : List PatchOutcome) :
    List.Forall₂ ListedAs (outcomes.filter fun o => o.status ≠ .applied) (outcomes.filterMap failure?) := by
  induction outcomes with
  | nil => exact .nil
  | cons o rest ih =>
    cases hfailure : o.failure? with
    | none =>
      have happlied : o.status = .applied := by
        by_contra hnot
        simpa [hfailure] using failure?_isSome_iff.mpr hnot
      rw [List.filterMap_cons_none hfailure, List.filter_cons_of_neg (by simpa using happlied)]
      exact ih
    | some e =>
      have hrefused : o.status ≠ .applied := failure?_isSome_iff.mp (by rw [hfailure]; rfl)
      rw [List.filterMap_cons_some hfailure, List.filter_cons_of_pos (by simpa using hrefused)]
      exact .cons (listedAs_of_failure? hfailure) ih

theorem countP_applied_add_length_failures (outcomes : List PatchOutcome) :
    (outcomes.countP fun o => o.status = .applied) + (outcomes.filterMap failure?).length =
      outcomes.length := by
  have hlength := (forall₂_failures outcomes).length_eq
  rw [← hlength, ← List.countP_eq_length_filter]
  simpa using (List.length_eq_countP_add_countP (fun o : PatchOutcome => decide (o.status = .applied))
    (l := outcomes)).symm

end PatchOutcome

theorem FailureReason.ofStage_eq (stage : Stage) : ofStage stage = stage.reason := by
  cases stage <;> rfl

namespace InstanceSummary

theorem applied_add_length_failures (r : RuntimeRecord) :
    (r.descriptors.countP fun o => o.status = .applied) + (ofRecord r).failures.length =
      r.descriptors.length + r.failure.toList.length := by
  have hcount := PatchOutcome.countP_applied_add_length_failures r.descriptors
  rw [ofRecord, List.length_append]
  simp only [Option.length_toList, Option.isSome_map]
  omega

theorem ofRecord_summarizes (r : RuntimeRecord) : (ofRecord r).Summarizes r where
  typeName := rfl
  displayName := rfl
  state := rfl
  failures := by
    refine ⟨_, ?_, PatchOutcome.forall₂_failures r.descriptors⟩
    rw [ofRecord]
    simp only [FailureReason.ofStage_eq]
  counted := by rw [← applied_add_length_failures, UInt64.ofNat_add, ofRecord]
  accounted := by
    intro hsize
    have hword : (ofRecord r).patchesApplied.toNat =
        r.descriptors.countP fun o => o.status = .applied :=
      UInt64.toNat_ofNat_of_lt (Nat.lt_of_le_of_lt List.countP_le_length hsize)
    rw [hword, applied_add_length_failures]

end InstanceSummary

namespace AggregateReport

theorem get?_update (identity : String) (change : PluginEntry → PluginEntry) (entries : Entries)
    (other : String) :
    (update identity change entries).get? other =
      if other = identity then some (change ((entries.get? identity).getD .empty)) else entries.get? other :=
  SortedMap.get?_insert entries identity _ other

/-- The changes that are made to an entry, the first of which may have to make it. -/
def changed {α : Type} (change : α → PluginEntry → PluginEntry) (items : List α) (e : Option PluginEntry) :
    Option PluginEntry :=
  items.foldl (fun e a => some (change a (e.getD .empty))) e

theorem isSome_changed {α : Type} {change : α → PluginEntry → PluginEntry} {items : List α}
    {e : Option PluginEntry} : (changed change items e).isSome ↔ e.isSome ∨ items ≠ [] := by
  induction items generalizing e with
  | nil => simp [changed]
  | cons a rest ih =>
    rw [changed, List.foldl_cons, ← changed, ih]
    simp

theorem instances_changed {α : Type} (change : α → PluginEntry → PluginEntry)
    (added : α → List InstanceSummary)
    (hchange : ∀ a e, (change a e).instances = e.instances ++ added a) (items : List α)
    (e : Option PluginEntry) :
    ((changed change items e).getD .empty).instances =
      (e.getD .empty).instances ++ items.flatMap added := by
  induction items generalizing e with
  | nil => simp [changed]
  | cons a rest ih =>
    rw [changed, List.foldl_cons, ← changed, ih, Option.getD_some, hchange, List.flatMap_cons,
      List.append_assoc]

/-- What stands under an identity after many changes are its own changes, one after another. -/
theorem get?_foldl_update {α : Type} (key : α → String) (change : α → PluginEntry → PluginEntry)
    (items : List α) (entries : Entries) (identity : String) :
    (items.foldl (fun entries a => update (key a) (change a) entries) entries).get? identity =
      changed change (items.filter fun a => key a = identity) (entries.get? identity) := by
  induction items generalizing entries with
  | nil => rfl
  | cons a rest ih =>
    rw [List.foldl_cons, ih, get?_update]
    by_cases hkey : key a = identity
    · rw [if_pos hkey.symm, List.filter_cons_of_pos (by simpa using hkey), hkey]
      rfl
    · rw [if_neg (Ne.symm hkey), List.filter_cons_of_neg (by simpa using hkey)]

def setCompliance (c : ComplianceReport) (e : PluginEntry) : PluginEntry := { e with compliance := some c }

def addInstance (r : RuntimeRecord) (e : PluginEntry) : PluginEntry :=
  { e with instances := e.instances ++ [.ofRecord r] }

/-- The records that stand in an outcome; without a run there are none. -/
def recordsOf (outcome : Option Outcome) : List RuntimeRecord := (outcome.map Outcome.records).getD []

/-- An entry is made by the reports and the records of its own identity. -/
theorem get?_aggregate (compliance : List ComplianceReport) (outcome : Option Outcome) (identity : String) :
    (aggregate compliance outcome).plugins.get? identity =
      changed addInstance ((recordsOf outcome).filter fun r => r.identity = identity)
        (changed setCompliance (compliance.filter fun c => c.identity = identity) none) := by
  have hcompliance := get?_foldl_update ComplianceReport.identity setCompliance compliance .empty identity
  have hrecords := get?_foldl_update RuntimeRecord.identity addInstance (recordsOf outcome)
    (compliance.foldl addCompliance .empty) identity
  exact hrecords.trans (congrArg (changed addInstance _) hcompliance)

theorem mem_keys_aggregate {compliance : List ComplianceReport} {outcome : Option Outcome}
    {identity : String} :
    identity ∈ (aggregate compliance outcome).plugins.keys ↔
      (∃ c ∈ compliance, c.identity = identity) ∨ ∃ r ∈ recordsOf outcome, r.identity = identity := by
  rw [SortedMap.mem_keys_iff, get?_aggregate, isSome_changed, isSome_changed]
  simp

/-- An entry lists the records of its identity, each summed up, in the order of the run. -/
theorem instances_aggregate {compliance : List ComplianceReport} {outcome : Option Outcome}
    {identity : String} {entry : PluginEntry}
    (hentry : (aggregate compliance outcome).plugin? identity = some entry) :
    entry.instances =
      ((recordsOf outcome).filter fun r => r.identity = identity).map InstanceSummary.ofRecord := by
  have hrecords := instances_changed addInstance (fun r => [.ofRecord r]) (fun _ _ => rfl)
    ((recordsOf outcome).filter fun r => r.identity = identity)
    (changed setCompliance (compliance.filter fun c => c.identity = identity) none)
  have hcompliance := instances_changed setCompliance (fun _ => [])
    (fun _ _ => (List.append_nil _).symm) (compliance.filter fun c => c.identity = identity) none
  have hnone : (compliance.filter fun c => c.identity = identity).flatMap
      (fun _ => ([] : List InstanceSummary)) = [] := List.flatMap_eq_nil_iff.mpr fun _ _ => rfl
  rw [← get?_aggregate, ← plugin?, hentry, hcompliance, hnone, ← List.map_eq_flatMap] at hrecords
  exact hrecords

end AggregateReport

/-- A report accounts for everything that a run has recorded. The identities in it are those of the two
    lists that it is made of; under an identity stand the summaries of its records and no others, in the
    order of the records; and no summary keeps back a failure. -/
theorem aggregate_accounts (compliance : List ComplianceReport) (outcome : Option Outcome) :
    let report := aggregate compliance outcome
    let records := AggregateReport.recordsOf outcome
    (∀ identity, identity ∈ report.plugins.keys ↔
      (∃ c ∈ compliance, c.identity = identity) ∨ ∃ r ∈ records, r.identity = identity) ∧
    ∀ identity entry, report.plugin? identity = some entry →
      List.Forall₂ InstanceSummary.Summarizes entry.instances
        (records.filter fun r => r.identity = identity) := by
  intro report records
  refine ⟨fun identity => AggregateReport.mem_keys_aggregate, fun identity entry hentry => ?_⟩
  rw [AggregateReport.instances_aggregate hentry, List.forall₂_map_left_iff, List.forall₂_same]
  exact fun r _ => InstanceSummary.ofRecord_summarizes r

/-- Two plugins of one module with another module between them, and a module that was vetted but not run. -/
theorem aggregate_accounts_for_mixed_identities :
    let patch : Patch := .before ⟨"Game", "Player", "Jump"⟩ ⟨"Mods", "Zoom", "OnJump"⟩
    let unnamed : Patch := ⟨none, none, .after, none⟩
    let zoom : RuntimeRecord := ⟨"zoom.cs", "Mods.Zoom", .patched, some (.named "Zoom"),
      [⟨patch, .applied⟩, ⟨unnamed, .nullDescriptor⟩, ⟨patch, .interceptionFailed "no"⟩], none⟩
    let jump : RuntimeRecord :=
      ⟨"jump.cs", "Mods.Jump", .patched, some (.named "Jump"), [⟨patch, .applied⟩], none⟩
    let fall : RuntimeRecord := ⟨"zoom.cs", "Mods.Fall", .failed .construction, none, [],
      some ⟨.construction, "no", false⟩⟩
    let report := aggregate [⟨"idle.cs", none, [], none, []⟩, ⟨"zoom.cs", none, [], none, []⟩]
      (some ⟨.success, none, [zoom, jump, fall]⟩)
    report.plugins.keys = ["idle.cs", "jump.cs", "zoom.cs"] ∧
      ∃ entry, report.plugin? "zoom.cs" = some entry ∧
        List.Forall₂ InstanceSummary.Summarizes entry.instances [zoom, fall] ∧
        zoom.descriptors.length < UInt64.size ∧
        entry.instances.map (fun s => (s.patchesApplied, s.failures.map FailureEntry.reason)) =
          [(1, [.nullDescriptor, .interceptionFailure]), (0, [.construction])] := by
  intro patch unnamed zoom jump fall report
  have hentry : report.plugin? "zoom.cs" = some ⟨some ⟨"zoom.cs", none, [], none, []⟩,
      [.ofRecord zoom, .ofRecord fall]⟩ := by decide +kernel
  have hsummaries := (aggregate_accounts _ _).2 "zoom.cs" _ hentry
  exact ⟨by decide +kernel, _, hentry, hsummaries, by decide +kernel, by decide +kernel⟩

end PluginHost
