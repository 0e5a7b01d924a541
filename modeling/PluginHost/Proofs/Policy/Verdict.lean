import Mathlib.Data.List.Nodup
import PluginHost.Policy.Policy
/-!
When a tier restricts a name, and which tier a policy finds under a rank.

Array groups and blanks at the end of a name are of no account. What is left of it is restricted if a
restriction of the tier covers it and no exception does, in whatever order the rules stand. Tiers of different
ranks are one policy, in which each is found under its rank.
-/

namespace PluginHost

/-- One of some namespaces contains the name. -/
def NameSet.Contain (namespaces : NameSet) (name : String) : Prop :=
  ∃ ns ∈ namespaces.names, ns.toList <+: name.toList

instance (namespaces : NameSet) (name : String) : Decidable (namespaces.Contain name) :=
  inferInstanceAs (Decidable (∃ ns ∈ namespaces.names, ns.toList <+: name.toList))

theorem NameSet.any_contains_iff {namespaces : NameSet} {name : String} :
    namespaces.any (Symbol.namespaceContains · name) = true ↔ namespaces.Contain name := by
  simp only [NameSet.any, List.any_eq_true, Symbol.namespaceContains_iff, Contain]

namespace Tier

/-- A restriction of the tier covers the name. -/
def Covers (t : Tier) (name : String) : Prop :=
  name ∈ t.restrictedTypes ∨ t.restrictedNamespaces.Contain name

/-- An exception of the tier covers the name. -/
def Excepts (t : Tier) (name : String) : Prop :=
  name ∈ t.whitelistedTypes ∨ t.whitelistedNamespaces.Contain name

/-- The tier restricts a name that is not an array type. -/
def Bars (t : Tier) (name : String) : Prop := t.Covers name ∧ ¬ t.Excepts name

instance (t : Tier) : DecidablePred t.Covers := fun name =>
  inferInstanceAs (Decidable (name ∈ t.restrictedTypes ∨ t.restrictedNamespaces.Contain name))

instance (t : Tier) : DecidablePred t.Excepts := fun name =>
  inferInstanceAs (Decidable (name ∈ t.whitelistedTypes ∨ t.whitelistedNamespaces.Contain name))

instance (t : Tier) : DecidablePred t.Bars := fun name =>
  inferInstanceAs (Decidable (t.Covers name ∧ ¬ t.Excepts name))

theorem classify_eq (t : Tier) (symbol : String) :
    t.classify symbol =
      if t.Excepts (Symbol.stripArraySuffix symbol) then .whitelisted
      else if t.Covers (Symbol.stripArraySuffix symbol) then .restricted
      else .unrestricted := by
  simp only [classify, NameSet.any_contains_iff, Excepts, Covers]
  by_cases htype : Symbol.stripArraySuffix symbol ∈ t.whitelistedTypes
  · simp only [htype, true_or, if_true]
  by_cases hrestricted : Symbol.stripArraySuffix symbol ∈ t.restrictedTypes
  · simp only [htype, hrestricted, true_or, false_or, if_true, if_false]
  · simp only [htype, hrestricted, false_or, if_false]

theorem classify_eq_restricted_iff {t : Tier} {symbol : String} :
    t.classify symbol = .restricted ↔ t.Bars (Symbol.stripArraySuffix symbol) := by
  rw [classify_eq, Bars]
  by_cases hexcepts : t.Excepts (Symbol.stripArraySuffix symbol)
  · simp [hexcepts]
  · by_cases hcovers : t.Covers (Symbol.stripArraySuffix symbol) <;> simp [hexcepts, hcovers]

end Tier

/-! Ranks of a policy. -/

namespace Policy

theorem repeatedRank?_eq_none {tiers : List Tier} (hnodup : (tiers.map Tier.rank).Nodup) :
    repeatedRank? tiers = none := by
  fun_induction repeatedRank? tiers with
  | case1 t u rest heq => simp [heq] at hnodup
  | case2 t u rest hne ih => exact ih hnodup.tail
  | case3 tiers hshort => rfl

/-- Tiers of different ranks are a policy in the order of their ranks. -/
theorem ofTiers_eq_ok {tiers : List Tier} (hne : tiers ≠ []) (hnodup : (tiers.map Tier.rank).Nodup) :
    ofTiers tiers = .ok ⟨tiers.mergeSort fun t u => t.rank ≤ u.rank⟩ := by
  have hperm := tiers.mergeSort_perm fun t u => decide (t.rank ≤ u.rank)
  have hsorted := repeatedRank?_eq_none ((hperm.map Tier.rank).nodup_iff.mpr hnodup)
  rw [ofTiers, if_neg (by simpa using hne)]
  simp only [hsorted]

theorem find?_rank_eq_some_iff {tiers : List Tier} (hnodup : (tiers.map Tier.rank).Nodup) {rank : UInt8}
    {t : Tier} : (tiers.find? fun u => u.rank = rank) = some t ↔ t ∈ tiers ∧ t.rank = rank := by
  constructor
  · exact fun h => ⟨List.mem_of_find?_eq_some h, by simpa using List.find?_some h⟩
  · rintro ⟨ht, rfl⟩
    have hsome : (tiers.find? fun u => u.rank = t.rank).isSome :=
      List.find?_isSome.mpr ⟨t, ht, decide_eq_true rfl⟩
    obtain ⟨u, hu⟩ := Option.isSome_iff_exists.mp hsome
    have hrank : u.rank = t.rank := by simpa using List.find?_some hu
    rw [hu, List.inj_on_of_nodup_map hnodup (List.mem_of_find?_eq_some hu) ht hrank]

theorem tier_eq_ok_iff {p : Policy} (hnodup : (p.tiers.map Tier.rank).Nodup) {rank : UInt8} {t : Tier} :
    p.tier rank = .ok t ↔ t ∈ p.tiers ∧ t.rank = rank := by
  rw [← find?_rank_eq_some_iff hnodup, tier]
  cases p.tiers.find? fun u => u.rank = rank <;> simp

end Policy

end PluginHost
