import Mathlib.Data.List.Chain
import PluginHost.Compliance.Verify
import PluginHost.Proofs.Policy.Verdict
import PluginHost.Proofs.Policy.Strictness
/-!
Policies whose tiers become stricter with their ranks.

A plugin that passes one tier of such a policy passes all before it, so the highest rank it passes tells all
that it passes. Main statement: the reference policy is such a policy.
-/

namespace PluginHost

/-- Tiers stand in the order of their ranks, and none is stricter than one that comes after it. -/
def Policy.Graded (p : Policy) : Prop :=
  p.tiers.Pairwise fun t u => t.rank < u.rank ∧ t.NoStricter u

namespace Policy.Graded

variable {p : Policy} {t u : Tier}

/-- It is enough to compare what neighbours list. -/
theorem of_lists (h : p.tiers.IsChain fun t u => t.rank < u.rank ∧ t.ListsNoStricter u) : p.Graded := by
  let Below (t u : Tier) : Prop := t.rank < u.rank ∧ t.NoStricter u
  have htrans : Trans Below Below Below :=
    ⟨fun htu huv => ⟨UInt8.lt_trans htu.1 huv.1, htu.2.trans huv.2⟩⟩
  have hchain : p.tiers.IsChain Below := h.imp fun _ _ htu => ⟨htu.1, htu.2.noStricter⟩
  exact List.isChain_iff_pairwise.mp hchain

theorem nodup_ranks (hgraded : p.Graded) : (p.tiers.map Tier.rank).Nodup :=
  List.pairwise_map.mpr (List.Pairwise.imp (fun h => UInt8.ne_of_lt h.1) hgraded)

theorem noStricter (hgraded : p.Graded) (ht : t ∈ p.tiers) (hu : u ∈ p.tiers) (hrank : t.rank ≤ u.rank) :
    t.NoStricter u := by
  obtain ⟨i, hi, rfl⟩ := List.getElem_of_mem ht
  obtain ⟨j, hj, rfl⟩ := List.getElem_of_mem hu
  have hpairwise := List.pairwise_iff_getElem.mp hgraded
  rcases Nat.lt_trichotomy i j with hlt | rfl | hgt
  · exact (hpairwise i j hi hj hlt).2
  · exact .refl _
  · exact absurd (hpairwise j i hj hi hgt).1 (UInt8.not_lt.mpr hrank)

end Policy.Graded

namespace ComplianceReport

/-- The report shows that the tier of a rank was passed. -/
def Passes (r : ComplianceReport) (rank : UInt8) : Prop := ∃ t, r.tier? rank = some t ∧ t.passed = true

theorem foldl_highest {ranks : List UInt8} {best h : UInt8}
    (hfold : ranks.foldl highest (some best) = some h) :
    (h = best ∨ h ∈ ranks) ∧ best ≤ h ∧ ∀ r ∈ ranks, r ≤ h := by
  induction ranks generalizing best with
  | nil =>
    cases hfold
    exact ⟨Or.inl rfl, UInt8.le_refl _, List.forall_mem_nil _⟩
  | cons rank rest ih =>
    rw [List.foldl_cons, highest] at hfold
    obtain ⟨hfrom, hbest, hrest⟩ := ih hfold
    rw [List.forall_mem_cons, List.mem_cons]
    by_cases hlt : best < rank
    · rw [if_pos hlt] at hfrom hbest
      exact ⟨Or.inr hfrom, UInt8.le_trans (UInt8.le_of_lt hlt) hbest, hbest, hrest⟩
    · rw [if_neg hlt] at hfrom hbest
      exact ⟨hfrom.imp_right Or.inr, hbest, UInt8.le_trans (UInt8.not_lt.mp hlt) hbest, hrest⟩

/-- The highest rank is that of a tier that was passed, and no tier of a higher one was. -/
theorem of_highestPassedTier {r : ComplianceReport} {h : UInt8} (hhighest : r.highestPassedTier = some h) :
    (∃ t ∈ r.tiers, t.passed = true ∧ t.tier = h) ∧
      ∀ t ∈ r.tiers, t.tested = true → t.passed = true → t.tier ≤ h := by
  have hmem : ∀ rank, rank ∈ (r.tiers.filter fun t => t.tested && t.passed).map (·.tier) ↔
      ∃ t ∈ r.tiers, (t.tested = true ∧ t.passed = true) ∧ t.tier = rank := by
    intro rank
    simp only [List.mem_map, List.mem_filter, Bool.and_eq_true, and_assoc]
  rw [highestPassedTier] at hhighest
  cases hranks : (r.tiers.filter fun t => t.tested && t.passed).map (·.tier) with
  | nil =>
    rw [hranks] at hhighest
    cases hhighest
  | cons rank rest =>
    rw [hranks] at hhighest hmem
    obtain ⟨hfrom, hrank, hrest⟩ := foldl_highest hhighest
    refine ⟨?_, fun t ht htested hpassed => ?_⟩
    · obtain ⟨t, ht, ⟨_, hpassed⟩, htier⟩ := (hmem h).mp (List.mem_cons.mpr hfrom)
      exact ⟨t, ht, hpassed, htier⟩
    · rcases List.mem_cons.mp ((hmem t.tier).mpr ⟨t, ht, ⟨htested, hpassed⟩, rfl⟩) with heq | hmore
      · exact heq ▸ hrank
      · exact hrest _ hmore

theorem passes_iff {policy : Policy} {r : ComplianceReport} {image : Image} {symbols : Option Symbols}
    (htiers : r.tiers = policy.tiers.map fun t => Analysis.ofImage t image symbols)
    (hgraded : policy.Graded) (rank : UInt8) :
    r.Passes rank ↔ ∃ t ∈ policy.tiers, t.rank = rank ∧ (Analysis.ofImage t image symbols).passed = true := by
  have hfind : r.tier? rank = (policy.tiers.find? fun t => t.rank = rank).map
      fun t => Analysis.ofImage t image symbols := by
    rw [tier?, htiers, List.find?_map]
    rfl
  rw [Passes, hfind]
  constructor
  · rintro ⟨result, hresult, hpassed⟩
    obtain ⟨t, hfound, rfl⟩ := Option.map_eq_some_iff.mp hresult
    obtain ⟨ht, hrank⟩ := (Policy.find?_rank_eq_some_iff hgraded.nodup_ranks).mp hfound
    exact ⟨t, ht, hrank, hpassed⟩
  · rintro ⟨t, ht, hrank, hpassed⟩
    have hfound := (Policy.find?_rank_eq_some_iff hgraded.nodup_ranks).mpr ⟨ht, hrank⟩
    exact ⟨_, Option.map_eq_some_iff.mpr ⟨t, hfound, rfl⟩, hpassed⟩

/-- Under a graded policy a plugin passes the tiers up to the highest that it passes, and no others. -/
theorem passes_iff_le_highest {policy : Policy} {r : ComplianceReport} {image : Image}
    {symbols : Option Symbols} {h : UInt8} (hgraded : policy.Graded)
    (htiers : r.tiers = policy.tiers.map fun t => Analysis.ofImage t image symbols)
    (hhighest : r.highestPassedTier = some h) (rank : UInt8) :
    r.Passes rank ↔ (∃ t ∈ policy.tiers, t.rank = rank) ∧ rank ≤ h := by
  obtain ⟨⟨result, hresult, hpassed, rfl⟩, hall⟩ := of_highestPassedTier hhighest
  rw [htiers] at hresult hall
  obtain ⟨highest, hmem, rfl⟩ := List.mem_map.mp hresult
  rw [passes_iff htiers hgraded]
  constructor
  · rintro ⟨t, ht, rfl, htpassed⟩
    exact ⟨⟨t, ht, rfl⟩, hall _ (List.mem_map_of_mem ht) rfl htpassed⟩
  · rintro ⟨⟨t, ht, rfl⟩, hle⟩
    refine ⟨t, ht, rfl, Analysis.passed_of_sublist ?_ hpassed⟩
    exact Analysis.violations_sublist (fun _ => (hgraded.noStricter ht hmem hle).restricts) _ _

/-- The tiers of a report are the analyses of one image, or none of them was tested. -/
theorem ofResult_tiers (policy : Policy) (identity : String) (obtained : Except Fault Artifact) :
    (∃ image symbols, (ofResult policy identity obtained).tiers =
        policy.tiers.map fun t => Analysis.ofImage t image symbols) ∨
      (ofResult policy identity obtained).tiers = policy.tiers.map fun t => .untested t.rank := by
  cases obtained with
  | error fault => cases fault <;> exact Or.inr rfl
  | ok artifact =>
    simp only [ofResult, ofArtifact]
    split
    · exact Or.inl ⟨_, _, rfl⟩
    · exact Or.inr rfl
    · exact Or.inr rfl

end ComplianceReport

namespace Policy

theorem reference_graded : reference.Graded := .of_lists (by decide +kernel)

theorem exists_reference_tier_iff (rank : UInt8) :
    (∃ t ∈ reference.tiers, t.rank = rank) ↔ 1 ≤ rank ∧ rank ≤ 4 := by
  have hranks : reference.tiers.map (·.rank) = [1, 2, 3, 4] := rfl
  rw [← List.mem_map, hranks]
  simp only [List.mem_cons, List.not_mem_nil, or_false]
  grind

theorem reference_passes_iff {report : ComplianceReport} {image : Image} {symbols : Option Symbols} {h : UInt8}
    (htiers : report.tiers = reference.tiers.map fun t => Analysis.ofImage t image symbols)
    (hhighest : report.highestPassedTier = some h) (rank : UInt8) :
    report.Passes rank ↔ 1 ≤ rank ∧ rank ≤ h := by
  obtain ⟨⟨result, hresult, _, htier⟩, _⟩ := ComplianceReport.of_highestPassedTier hhighest
  rw [htiers] at hresult
  obtain ⟨t, ht, rfl⟩ := List.mem_map.mp hresult
  have hfour : h ≤ 4 := ((exists_reference_tier_iff h).mp ⟨t, ht, htier⟩).2
  rw [ComplianceReport.passes_iff_le_highest reference_graded htiers hhighest, exists_reference_tier_iff]
  constructor
  · rintro ⟨⟨hone, _⟩, hle⟩
    exact ⟨hone, hle⟩
  · rintro ⟨hone, hle⟩
    exact ⟨⟨hone, UInt8.le_trans hle hfour⟩, hle⟩

/-- In the reference policy a tier restricts all names and all methods that the tier before it restricts. So
    a module that passes a tier passes the one before it, and a plugin whose highest passed tier is `h` passes
    the tiers from 1 to `h` and no other. This holds for the analysis of any image, and for any plugin that is
    verified with any toolchain. -/
theorem reference_ordered_by_rank :
    (∀ rank : UInt8, 1 ≤ rank → rank ≤ 3 → ∃ t u, reference.tier rank = .ok t ∧
      reference.tier (rank + 1) = .ok u ∧
      (∀ symbol, t.classify symbol = .restricted → u.classify symbol = .restricted) ∧
      (∀ method, t.isMethodRestricted method = true → u.isMethodRestricted method = true) ∧
      ∀ image symbols, (Analysis.ofImage u image symbols).passed = true →
        (Analysis.ofImage t image symbols).passed = true) ∧
    (∀ (report : ComplianceReport) image symbols,
      report.tiers = reference.tiers.map (fun t => Analysis.ofImage t image symbols) →
        ∀ h, report.highestPassedTier = some h → ∀ rank, report.Passes rank ↔ 1 ≤ rank ∧ rank ≤ h) ∧
    ∀ toolchain references compiler disk plugin,
      let report := (Verifier.verify ⟨reference, toolchain, references⟩ compiler disk plugin).result
      ∀ h, report.highestPassedTier = some h → ∀ rank, report.Passes rank ↔ 1 ≤ rank ∧ rank ≤ h := by
  refine ⟨fun rank hone hthree => ?_, fun _ _ _ htiers _ => reference_passes_iff htiers, ?_⟩
  · obtain ⟨t, ht, rfl⟩ := (exists_reference_tier_iff rank).mpr ⟨hone, by grind⟩
    obtain ⟨u, hu, hnext⟩ := (exists_reference_tier_iff (t.rank + 1)).mpr (by grind)
    have hnoStricter : t.NoStricter u := reference_graded.noStricter ht hu (by grind)
    refine ⟨t, u, (tier_eq_ok_iff reference_graded.nodup_ranks).mpr ⟨ht, rfl⟩,
      (tier_eq_ok_iff reference_graded.nodup_ranks).mpr ⟨hu, hnext⟩,
      hnoStricter.symbol, hnoStricter.method, fun image symbols => Analysis.passed_of_sublist ?_⟩
    exact Analysis.violations_sublist (fun _ => hnoStricter.restricts) image symbols
  · intro toolchain references compiler disk plugin report h hhighest rank
    rcases ComplianceReport.ofResult_tiers reference plugin.identity
        (Verifier.obtain ⟨reference, toolchain, references⟩ compiler disk plugin).result with
      ⟨image, symbols, htiers⟩ | huntested
    · exact reference_passes_iff htiers hhighest rank
    · obtain ⟨⟨result, hresult, hpassed, _⟩, _⟩ := ComplianceReport.of_highestPassedTier hhighest
      rw [show report.tiers = _ from huntested] at hresult
      obtain ⟨t, _, rfl⟩ := List.mem_map.mp hresult
      cases hpassed

end Policy

end PluginHost
