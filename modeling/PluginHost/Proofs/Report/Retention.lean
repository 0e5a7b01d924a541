import PluginHost.Cli.Execution
import PluginHost.Proofs.Report.Accounts
import PluginHost.Proofs.Toml.Table
/-!
Which compliance reports a report on several plugins keeps.

An entry has room for one compliance report, and a later one of the same identity takes the place of an
earlier one. Main statement: a compliance report is kept exactly if it is the last one of its identity, so that
none is dropped exactly if no two different ones have one identity.
-/

namespace PluginHost

/-- Every entry of an ascending list is found under its own key. -/
theorem Assoc.get?_of_mem {α : Type} {entries : List (String × α)} (hasc : Ascending entries) {e : String × α}
    (he : e ∈ entries) : get? entries e.1 = some e.2 := by
  induction entries with
  | nil => cases he
  | cons first rest ih =>
    have hkeys := nodup_keys hasc
    rw [List.map_cons, List.nodup_cons] at hkeys
    rcases List.mem_cons.mp he with rfl | hrest
    · simp [get?]
    · have hne : first.1 ≠ e.1 := fun heq => hkeys.1 (heq ▸ List.mem_map_of_mem hrest)
      have hfound : get? (first :: rest) e.1 = get? rest e.1 := by simp [get?, hne]
      rw [hfound]
      exact ih (List.pairwise_cons.mp hasc).2 hrest

/-- The values of a map are those that are found in it. -/
theorem SortedMap.mem_values_iff {α : Type} {m : SortedMap String α} {value : α} :
    value ∈ m.values ↔ ∃ key, m.get? key = some value := by
  constructor
  · intro hmem
    obtain ⟨e, he, rfl⟩ := List.mem_map.mp hmem
    exact ⟨e.1, Assoc.get?_of_mem m.ascending he⟩
  · rintro ⟨key, hget⟩
    exact Assoc.mem_values_of_get? hget

namespace AggregateReport

/-- The compliance reports that stand in a report, in the order of their entries. -/
def compliance (r : AggregateReport) : List ComplianceReport := r.plugins.values.filterMap PluginEntry.compliance

/-- Of several compliance reports for one entry the last stays. -/
theorem compliance_changed (items : List ComplianceReport) (e : Option PluginEntry) :
    (changed setCompliance items e).bind PluginEntry.compliance =
      items.getLast?.or (e.bind PluginEntry.compliance) := by
  induction items generalizing e with
  | nil => rfl
  | cons c rest ih =>
    rw [changed, List.foldl_cons, ← changed, ih, List.getLast?_cons]
    cases rest.getLast? <;> rfl

theorem compliance_plugin? (reports : List ComplianceReport) (identity : String) :
    ((aggregate reports none).plugin? identity).bind PluginEntry.compliance =
      (reports.filter fun c => c.identity = identity).getLast? := by
  have hentry : (aggregate reports none).plugin? identity =
      changed setCompliance (reports.filter fun c => c.identity = identity) none :=
    get?_aggregate reports none identity
  rw [hentry, compliance_changed]
  exact Option.or_none

theorem mem_compliance_iff {reports : List ComplianceReport} {c : ComplianceReport} :
    c ∈ (aggregate reports none).compliance ↔
      (reports.filter fun other => other.identity = c.identity).getLast? = some c := by
  have hkept : c ∈ (aggregate reports none).compliance ↔
      ∃ identity, (reports.filter fun other => other.identity = identity).getLast? = some c := by
    simp only [compliance, List.mem_filterMap, SortedMap.mem_values_iff, ← compliance_plugin?, plugin?,
      Option.bind_eq_some_iff]
    constructor
    · rintro ⟨entry, ⟨identity, hentry⟩, hc⟩
      exact ⟨identity, entry, hentry, hc⟩
    · rintro ⟨identity, entry, hentry, hc⟩
      exact ⟨entry, ⟨identity, hentry⟩, hc⟩
  rw [hkept]
  constructor
  · -- A report stands under no identity but its own.
    rintro ⟨identity, hlast⟩
    have hidentity : c.identity = identity := by simpa using (List.mem_filter.mp (List.mem_of_getLast? hlast)).2
    rwa [hidentity]
  · exact fun hlast => ⟨_, hlast⟩

/-- A report on several plugins keeps a compliance report exactly if it is the last one of its identity. So none
    of them is dropped exactly if any two of one identity are the same. -/
theorem compliance_kept_iff (reports : List ComplianceReport) :
    let kept := (aggregate reports none).compliance
    (∀ c, c ∈ kept ↔ (reports.filter fun other => other.identity = c.identity).getLast? = some c) ∧
      ((∀ c ∈ reports, c ∈ kept) ↔
        ∀ c ∈ reports, ∀ other ∈ reports, c.identity = other.identity → c = other) := by
  intro kept
  refine ⟨fun c => mem_compliance_iff, fun hkept c hc other hother hidentity => ?_, fun hsame c hc => ?_⟩
  · have hlast := mem_compliance_iff.mp (hkept c hc)
    rw [hidentity, mem_compliance_iff.mp (hkept other hother)] at hlast
    exact (Option.some.inj hlast).symm
  · have hmem : c ∈ reports.filter fun other => other.identity = c.identity :=
      List.mem_filter.mpr ⟨hc, decide_eq_true rfl⟩
    have hlast := List.getLast?_eq_some_getLast (List.ne_nil_of_mem hmem)
    obtain ⟨hlastMem, hidentity⟩ := List.mem_filter.mp (List.mem_of_getLast? hlast)
    rw [hsame _ hlastMem c hc (of_decide_eq_true hidentity)] at hlast
    exact mem_compliance_iff.mpr hlast

end AggregateReport

namespace Overwritten

/-- A module without types. -/
def module : List UInt8 := ((Artifact.ofImage ⟨"a", []⟩ none).toOption.getD default).module

/-- Two files of one name, the first of which is no module. -/
def disk : Disk := ⟨[("a.pwmod", .file []), ("mods", .directory [("a.pwmod", .file module)])], [], 0⟩

def around : Cli.Surroundings := ⟨⟨[("HOME", "/home")]⟩, fun disk _ _ => (disk, .error .notFound), ""⟩

def options : Cli.VerifyOptions := ⟨["a.pwmod", "/mods/a.pwmod"], some "/mods", none, [], none⟩

/-- The reports of the files, one by one. -/
def reports : List ComplianceReport :=
  match Cli.planVerify around disk options with
  | .ok plan => (plan.verifier.verifyAll plan.compiler disk plan.plugins).result
  | .error _ => []

/-- A file below the root and one of the same relative path elsewhere are two plugins of one identity. Printed one
    by one they are both seen; the report on all of them keeps only the one that passes. -/
theorem earlier_report_dropped :
    (Cli.verify around disk ⟨.verify options, .text, true⟩ options).output =
        "a.pwmod: untested\na.pwmod: passes tier 4\n" ∧
      (Cli.verify around disk ⟨.verify options, .json, true⟩ options).output =
        Cli.lines [(Cli.datedReport around.now reports).prettyText] ∧
      reports.map (fun c => c.highestPassedTier) = [none, some 4] ∧
      (aggregate reports none).compliance.map (fun c => c.highestPassedTier) = [some 4] :=
  ⟨by decide +kernel, rfl, by decide +kernel, by decide +kernel⟩

end Overwritten

end PluginHost
