import PluginHost.Proofs.Policy.Strictness
/-!
What more rules do to an analysis.

A restriction can only add violations, an exception can only take some away, and a method is restricted or not
whatever exceptions there are. This holds for rules that are added in any number and in any way.
-/

namespace PluginHost

namespace Tier

/-- One tier has the rules of another one and perhaps more restrictions, but no other exceptions. -/
structure AddsRestrictions (t u : Tier) : Prop where
  namespaces : ∀ ns ∈ t.restrictedNamespaces, ns ∈ u.restrictedNamespaces
  types : ∀ type ∈ t.restrictedTypes, type ∈ u.restrictedTypes
  methods : ∀ method ∈ t.restrictedMethods, method ∈ u.restrictedMethods
  exceptNamespaces : u.whitelistedNamespaces = t.whitelistedNamespaces
  exceptTypes : u.whitelistedTypes = t.whitelistedTypes

/-- One tier has the rules of another one and perhaps more exceptions, but no other restrictions. -/
structure AddsExceptions (t u : Tier) : Prop where
  namespaces : ∀ ns ∈ t.whitelistedNamespaces, ns ∈ u.whitelistedNamespaces
  types : ∀ type ∈ t.whitelistedTypes, type ∈ u.whitelistedTypes
  restrictedNamespaces : u.restrictedNamespaces = t.restrictedNamespaces
  restrictedTypes : u.restrictedTypes = t.restrictedTypes
  restrictedMethods : u.restrictedMethods = t.restrictedMethods

end Tier

theorem NameSet.Contain.mono {namespaces more : NameSet} {name : String} (h : namespaces.Contain name)
    (hmore : ∀ ns ∈ namespaces, ns ∈ more) : more.Contain name := by
  obtain ⟨ns, hns, hprefix⟩ := h
  exact ⟨ns, hmore ns hns, hprefix⟩

/-- A rule as it is given to a tier. -/
inductive Rule where
  | restrictNamespace (ns : String)
  | restrictType (type : String)
  | restrictMethod (method : String)
  | whitelistNamespace (ns : String)
  | whitelistType (type : String)
deriving DecidableEq

/-- Whether a rule makes an exception. -/
def Rule.isException : Rule → Bool
  | .restrictNamespace _ | .restrictType _ | .restrictMethod _ => false
  | .whitelistNamespace _ | .whitelistType _ => true

namespace Tier

variable {t u v : Tier}

def add (t : Tier) : Rule → Tier
  | .restrictNamespace ns => t.restrictNamespace ns
  | .restrictType type => t.restrictType type
  | .restrictMethod method => t.restrictMethod method
  | .whitelistNamespace ns => t.whitelistNamespace ns
  | .whitelistType type => t.whitelistType type

namespace AddsRestrictions

theorem refl (t : Tier) : t.AddsRestrictions t :=
  ⟨fun _ h => h, fun _ h => h, fun _ h => h, rfl, rfl⟩

theorem trans (htu : t.AddsRestrictions u) (huv : u.AddsRestrictions v) : t.AddsRestrictions v where
  namespaces ns h := huv.namespaces ns (htu.namespaces ns h)
  types type h := huv.types type (htu.types type h)
  methods method h := huv.methods method (htu.methods method h)
  exceptNamespaces := huv.exceptNamespaces.trans htu.exceptNamespaces
  exceptTypes := huv.exceptTypes.trans htu.exceptTypes

theorem add {rule : Rule} (hrule : rule.isException = false) : t.AddsRestrictions (t.add rule) := by
  cases rule with
  | restrictNamespace ns => exact { refl t with namespaces := fun _ h => NameSet.mem_insert.mpr (Or.inr h) }
  | restrictType type => exact { refl t with types := fun _ h => NameSet.mem_insert.mpr (Or.inr h) }
  | restrictMethod method => exact { refl t with methods := fun _ h => NameSet.mem_insert.mpr (Or.inr h) }
  | whitelistNamespace ns => cases hrule
  | whitelistType type => cases hrule

theorem foldl_add {rules : List Rule} (hrules : ∀ rule ∈ rules, rule.isException = false) :
    t.AddsRestrictions (rules.foldl Tier.add t) := by
  induction rules generalizing t with
  | nil => exact refl t
  | cons rule rest ih =>
    rw [List.forall_mem_cons] at hrules
    exact (add hrules.1).trans (ih hrules.2)

/-- The exceptions are the same, so what was restricted still is. -/
theorem noStricter (h : t.AddsRestrictions u) : t.NoStricter u where
  symbol symbol hrestricted := by
    rw [classify_eq_restricted_iff] at hrestricted ⊢
    obtain ⟨hcovers, hexcepts⟩ := hrestricted
    refine ⟨hcovers.imp (h.types _) (·.mono h.namespaces), ?_⟩
    rwa [Excepts, h.exceptTypes, h.exceptNamespaces]
  method name hrestricted := by
    have hmem : name ∈ t.restrictedMethods := of_decide_eq_true hrestricted
    exact decide_eq_true (h.methods name hmem)

end AddsRestrictions

namespace AddsExceptions

theorem refl (t : Tier) : t.AddsExceptions t := ⟨fun _ h => h, fun _ h => h, rfl, rfl, rfl⟩

theorem trans (htu : t.AddsExceptions u) (huv : u.AddsExceptions v) : t.AddsExceptions v where
  namespaces ns h := huv.namespaces ns (htu.namespaces ns h)
  types type h := huv.types type (htu.types type h)
  restrictedNamespaces := huv.restrictedNamespaces.trans htu.restrictedNamespaces
  restrictedTypes := huv.restrictedTypes.trans htu.restrictedTypes
  restrictedMethods := huv.restrictedMethods.trans htu.restrictedMethods

theorem add {rule : Rule} (hrule : rule.isException = true) : t.AddsExceptions (t.add rule) := by
  cases rule with
  | restrictNamespace ns => cases hrule
  | restrictType type => cases hrule
  | restrictMethod method => cases hrule
  | whitelistNamespace ns => exact { refl t with namespaces := fun _ h => NameSet.mem_insert.mpr (Or.inr h) }
  | whitelistType type => exact { refl t with types := fun _ h => NameSet.mem_insert.mpr (Or.inr h) }

theorem foldl_add {rules : List Rule} (hrules : ∀ rule ∈ rules, rule.isException = true) :
    t.AddsExceptions (rules.foldl Tier.add t) := by
  induction rules generalizing t with
  | nil => exact refl t
  | cons rule rest ih =>
    rw [List.forall_mem_cons] at hrules
    exact (add hrules.1).trans (ih hrules.2)

theorem noStricter (h : t.AddsExceptions u) : u.NoStricter t where
  symbol symbol hrestricted := by
    rw [classify_eq_restricted_iff] at hrestricted ⊢
    obtain ⟨hcovers, hexcepts⟩ := hrestricted
    rw [Covers, h.restrictedTypes, h.restrictedNamespaces] at hcovers
    exact ⟨hcovers, fun hexcepted => hexcepts (hexcepted.imp (h.types _) (·.mono h.namespaces))⟩
  method name hrestricted := by
    rwa [isMethodRestricted, h.restrictedMethods] at hrestricted

/-- Exceptions are made for types and namespaces only. -/
theorem restricts_method_iff (h : t.AddsExceptions u) {violation : Violation}
    (hreason : violation.reason = .restrictedMethod) : u.Restricts violation ↔ t.Restricts violation := by
  rw [Restricts, Restricts, hreason]
  simp only [h.restrictedMethods]

end AddsExceptions

end Tier

namespace Analysis

/-- Restrictions that are added to a tier leave all violations of an image in place and perhaps put new ones
    between them, so what failed still fails. Exceptions that are added take violations away, but none of a
    restricted method, and leave the others in order, so what passed still passes. -/
theorem violations_monotone (tier : Tier) (image : Image) (symbols : Option Symbols) :
    (∀ stricter, tier.AddsRestrictions stricter →
      (ofImage tier image symbols).violations.Sublist (ofImage stricter image symbols).violations ∧
      ((ofImage tier image symbols).passed = false → (ofImage stricter image symbols).passed = false)) ∧
    (∀ milder, tier.AddsExceptions milder →
      (ofImage milder image symbols).violations.Sublist (ofImage tier image symbols).violations ∧
      ((ofImage milder image symbols).violations.filter fun v => v.reason = .restrictedMethod) =
        ((ofImage tier image symbols).violations.filter fun v => v.reason = .restrictedMethod) ∧
      ((ofImage tier image symbols).passed = true → (ofImage milder image symbols).passed = true)) ∧
    ∀ rules : List Rule,
      ((∀ rule ∈ rules, rule.isException = false) → tier.AddsRestrictions (rules.foldl Tier.add tier)) ∧
      ((∀ rule ∈ rules, rule.isException = true) → tier.AddsExceptions (rules.foldl Tier.add tier)) := by
  refine ⟨fun stricter hadds => ?_, fun milder hadds => ?_, fun rules => ⟨.foldl_add, .foldl_add⟩⟩
  · have hsublist := violations_sublist (fun _ => hadds.noStricter.restricts) image symbols
    refine ⟨hsublist, fun hfailed => Bool.eq_false_iff.mpr fun hpassed => ?_⟩
    rw [passed_of_sublist hsublist hpassed] at hfailed
    cases hfailed
  · have hsublist := violations_sublist (fun _ => hadds.noStricter.restricts) image symbols
    refine ⟨hsublist, ?_, passed_of_sublist hsublist⟩
    change (violations milder image symbols).filter _ = (violations tier image symbols).filter _
    rw [violations_eq_filter_mentions, violations_eq_filter_mentions, List.filter_filter, List.filter_filter]
    refine List.filter_congr fun v _ => ?_
    by_cases hreason : v.reason = .restrictedMethod
    · simp only [hreason, decide_true, Bool.true_and, hadds.restricts_method_iff hreason]
    · simp only [hreason, decide_false, Bool.false_and]

end Analysis

end PluginHost
