import Mathlib.Data.Finset.Max
import PluginHost.Proofs.Compliance.Mentions
import PluginHost.Proofs.Policy.Verdict
/-!
When one tier restricts at least what another one does.

Names are any texts, so this cannot be tried name by name. What a tier says about a name that it does not list
is decided by the namespaces that contain the name, and of several of these each is a part of the longest. So
the names that two tiers list are enough to compare them.
-/

namespace PluginHost

/-- Of some texts that another one begins with, the longest begins with all of them. -/
theorem exists_longest_prefix {rules : List String} {name : String}
    (hsome : ∃ r ∈ rules, r.toList <+: name.toList) :
    ∃ longest ∈ rules, longest.toList <+: name.toList ∧
      ∀ r ∈ rules, r.toList <+: name.toList ↔ r.toList <+: longest.toList := by
  obtain ⟨first, hfirst, hprefix⟩ := hsome
  let found := (rules.filter fun r => r.toList <+: name.toList).toFinset
  have hmem : ∀ r, r ∈ found ↔ r ∈ rules ∧ r.toList <+: name.toList := by
    intro r
    simp [found]
  obtain ⟨longest, hlongest, hmax⟩ :=
    found.exists_max_image (fun r => r.toList.length) ⟨first, (hmem first).mpr ⟨hfirst, hprefix⟩⟩
  obtain ⟨hrule, hstart⟩ := (hmem longest).mp hlongest
  refine ⟨longest, hrule, hstart, fun r hr => ⟨fun h => ?_, fun h => h.trans hstart⟩⟩
  exact List.prefix_of_prefix_length_le h hstart (hmax r ((hmem r).mpr ⟨hr, h⟩))

namespace Tier

/-- Whatever one tier restricts, the other one restricts too. -/
structure NoStricter (t u : Tier) : Prop where
  symbol : ∀ symbol, t.classify symbol = .restricted → u.classify symbol = .restricted
  method : ∀ name, t.isMethodRestricted name = true → u.isMethodRestricted name = true

namespace NoStricter

variable {t u v : Tier}

theorem refl (t : Tier) : t.NoStricter t := ⟨fun _ h => h, fun _ h => h⟩

theorem trans (htu : t.NoStricter u) (huv : u.NoStricter v) : t.NoStricter v :=
  ⟨fun symbol h => huv.symbol symbol (htu.symbol symbol h),
    fun name h => huv.method name (htu.method name h)⟩

theorem restricts (h : t.NoStricter u) {violation : Violation} (hrestricts : t.Restricts violation) :
    u.Restricts violation := by
  obtain ⟨location, name, reason, isArgument⟩ := violation
  cases reason with
  | restrictedType => exact h.symbol name hrestricts
  | restrictedMethod => exact of_decide_eq_true (h.method name (decide_eq_true hrestricts))

end NoStricter

/-- The namespaces that a tier has rules for. -/
def listedNamespaces (t : Tier) : List String :=
  t.restrictedNamespaces.names ++ t.whitelistedNamespaces.names

/-- The types that a tier has rules for. -/
def listedTypes (t : Tier) : List String := t.restrictedTypes.names ++ t.whitelistedTypes.names

/-- The tier restricts a namespace, so that it restricts every name in it that it does not list and that lies
    in no other namespace it lists. -/
def BarsNamespace (t : Tier) (ns : String) : Prop :=
  t.restrictedNamespaces.Contain ns ∧ ¬ t.whitelistedNamespaces.Contain ns

instance (t : Tier) : DecidablePred t.BarsNamespace := fun ns =>
  inferInstanceAs (Decidable (t.restrictedNamespaces.Contain ns ∧ ¬ t.whitelistedNamespaces.Contain ns))

/-- Whatever one tier restricts among the names that either of them lists, the other one restricts too. -/
structure ListsNoStricter (t u : Tier) : Prop where
  namespaces : ∀ ns ∈ t.listedNamespaces ++ u.listedNamespaces, t.BarsNamespace ns → u.BarsNamespace ns
  types : ∀ type ∈ t.listedTypes ++ u.listedTypes, t.Bars type → u.Bars type
  methods : ∀ method ∈ t.restrictedMethods.names, method ∈ u.restrictedMethods

instance (t u : Tier) : Decidable (t.ListsNoStricter u) :=
  decidable_of_iff
    ((∀ ns ∈ t.listedNamespaces ++ u.listedNamespaces, t.BarsNamespace ns → u.BarsNamespace ns) ∧
      (∀ type ∈ t.listedTypes ++ u.listedTypes, t.Bars type → u.Bars type) ∧
      ∀ method ∈ t.restrictedMethods.names, method ∈ u.restrictedMethods)
    ⟨fun h => ⟨h.1, h.2.1, h.2.2⟩, fun h => ⟨h.namespaces, h.types, h.methods⟩⟩

/-- A name that a tier does not list is judged by namespaces alone. -/
theorem bars_iff_of_not_listed {t : Tier} {name : String} (hname : name ∉ t.listedTypes) :
    t.Bars name ↔ t.BarsNamespace name := by
  have hrestricted : ¬ name ∈ t.restrictedTypes := fun h => hname (List.mem_append_left _ h)
  have hwhitelisted : ¬ name ∈ t.whitelistedTypes := fun h => hname (List.mem_append_right _ h)
  simp only [Bars, Covers, Excepts, BarsNamespace, hrestricted, hwhitelisted, false_or]

/-- Two names in the same namespaces of those that a tier lists are alike to it. -/
theorem barsNamespace_congr {t : Tier} {name other : String}
    (hsame : ∀ ns ∈ t.listedNamespaces, ns.toList <+: name.toList ↔ ns.toList <+: other.toList) :
    t.BarsNamespace name ↔ t.BarsNamespace other := by
  have hcontain : ∀ namespaces : NameSet, namespaces.names ⊆ t.listedNamespaces →
      (namespaces.Contain name ↔ namespaces.Contain other) := fun namespaces hlisted =>
    exists_congr fun ns => and_congr_right fun hns => hsame ns (hlisted hns)
  rw [BarsNamespace, BarsNamespace, hcontain _ (List.subset_append_left _ _),
    hcontain _ (List.subset_append_right _ _)]

theorem ListsNoStricter.bars {t u : Tier} (h : t.ListsNoStricter u) {name : String} (hbars : t.Bars name) :
    u.Bars name := by
  by_cases hlisted : name ∈ t.listedTypes ++ u.listedTypes
  · exact h.types name hlisted hbars
  · rw [List.mem_append, not_or] at hlisted
    rw [bars_iff_of_not_listed hlisted.1] at hbars
    rw [bars_iff_of_not_listed hlisted.2]
    -- Both tiers judge the name as they judge the longest namespace it lies in.
    obtain ⟨ns, hns, hprefix⟩ := hbars.1
    have hsome : ∃ r ∈ t.listedNamespaces ++ u.listedNamespaces, r.toList <+: name.toList :=
      ⟨ns, List.mem_append_left _ (List.mem_append_left _ hns), hprefix⟩
    obtain ⟨longest, hlongest, _, hsame⟩ := exists_longest_prefix hsome
    rw [barsNamespace_congr fun r hr => hsame r (List.mem_append_left _ hr)] at hbars
    rw [barsNamespace_congr fun r hr => hsame r (List.mem_append_right _ hr)]
    exact h.namespaces longest hlongest hbars

/-- To compare two tiers it is enough to look at what they list. -/
theorem ListsNoStricter.noStricter {t u : Tier} (h : t.ListsNoStricter u) : t.NoStricter u where
  symbol symbol hrestricted := by
    rw [classify_eq_restricted_iff] at hrestricted ⊢
    exact h.bars hrestricted
  method name hrestricted := by
    have hmem : name ∈ t.restrictedMethods := of_decide_eq_true hrestricted
    exact decide_eq_true (h.methods name hmem)

end Tier

namespace Analysis

variable {t u : Tier}

/-- A tier that restricts more names reports more violations of an image, and the others in the same order. -/
theorem violations_sublist (h : ∀ v, t.Restricts v → u.Restricts v) (image : Image)
    (symbols : Option Symbols) : (violations t image symbols).Sublist (violations u image symbols) := by
  rw [violations_eq_filter_mentions, violations_eq_filter_mentions]
  refine List.monotone_filter_right _ fun v hv => ?_
  exact decide_eq_true (h v (of_decide_eq_true hv))

theorem passed_of_sublist {image : Image} {symbols : Option Symbols}
    (h : (violations t image symbols).Sublist (violations u image symbols))
    (hpassed : (ofImage u image symbols).passed = true) : (ofImage t image symbols).passed = true := by
  have hnone : violations u image symbols = [] := List.isEmpty_iff.mp hpassed
  rw [hnone] at h
  exact List.isEmpty_iff.mpr (List.sublist_nil.mp h)

end Analysis

end PluginHost
