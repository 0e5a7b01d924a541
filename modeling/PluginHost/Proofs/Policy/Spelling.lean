import Mathlib.Logic.Function.Iterate
import PluginHost.Image.TypeRef
import PluginHost.Proofs.Policy.ArrayGroups
import PluginHost.Proofs.Policy.Verdict
/-!
How the names of types are spelled, and what a tier makes of it.

A tier that is built from rules leaves array groups and blanks at the end of a type name aside, and a tier that
is read keeps each name as it is written. So the two differ in the rules for types that are not written as they
are looked up, and only for these types and their array types.

A name is looked up without what a tier that is built leaves aside. So no tier tells a type from its array types,
except a type whose name ends in a blank: that blank is left aside at the end of a name, and counts before an array
group. Main statement on this: `array_groups_ignored_iff`.
-/

namespace PluginHost

namespace Symbol

open Text

/-- Nothing is cut off behind an array group, but blanks before it stay. -/
theorem stripArraySuffix_array (name : String) :
    stripArraySuffix (name ++ "[]") = String.ofList (dropArrayGroups name.toList) :=
  stripArraySuffix_decorate name 0 []

/-- What is left of a name is left of its array type too, though the name itself may come to less: blanks at
    its end are cut off only if no array group follows. -/
theorem stripArraySuffix_array_strip (symbol : String) :
    stripArraySuffix (stripArraySuffix symbol ++ "[]") = stripArraySuffix symbol := by
  rw [stripArraySuffix_array, stripArraySuffix, String.toList_ofList, dropArrayGroups_idem]

end Symbol

namespace Tier

theorem classify_congr (t : Tier) {symbol other : String}
    (h : Symbol.stripArraySuffix symbol = Symbol.stripArraySuffix other) :
    t.classify symbol = t.classify other := by
  rw [classify_eq, classify_eq, h]

/-- Rules of one kind that are given one after another all end up in one set. -/
theorem foldl_rule (add : Tier → String → Tier) (put : NameSet → Tier) (spell : String → String)
    (hadd : ∀ names name, add (put names) name = put (names.insert (spell name))) (names : NameSet)
    (rules : List String) :
    rules.foldl add (put names) = put ((rules.map spell).foldl NameSet.insert names) := by
  induction rules generalizing names with
  | nil => rfl
  | cons rule rest ih => rw [List.foldl_cons, hadd, ih, List.map_cons, List.foldl_cons]

/-- A tier that is built holds the names as they were given, except those of types. -/
theorem build_eq (rank : UInt8) (name : String) (restrictedNamespaces restrictedTypes restrictedMethods
    whitelistedNamespaces whitelistedTypes : List String) :
    build rank name restrictedNamespaces restrictedTypes restrictedMethods whitelistedNamespaces
        whitelistedTypes =
      ⟨rank, name, .ofList restrictedNamespaces, .ofList (restrictedTypes.map Symbol.stripArraySuffix),
        .ofList restrictedMethods, .ofList whitelistedNamespaces,
        .ofList (whitelistedTypes.map Symbol.stripArraySuffix)⟩ := by
  simp only [build, empty]
  rw [foldl_rule restrictNamespace (fun names => ⟨rank, name, names, _, _, _, _⟩) id fun _ _ => rfl,
    foldl_rule restrictType (fun names => ⟨rank, name, _, names, _, _, _⟩) Symbol.stripArraySuffix
      fun _ _ => rfl,
    foldl_rule restrictMethod (fun names => ⟨rank, name, _, _, names, _, _⟩) id fun _ _ => rfl,
    foldl_rule whitelistNamespace (fun names => ⟨rank, name, _, _, _, names, _⟩) id fun _ _ => rfl,
    foldl_rule whitelistType (fun names => ⟨rank, name, _, _, _, _, names⟩) Symbol.stripArraySuffix
      fun _ _ => rfl]
  simp only [List.map_id, NameSet.ofList]

end Tier

/-- A tier as it is written down: a rank, a name and five lists of names. -/
structure TierListing where
  rank : UInt8
  name : String
  restrictedNamespaces : List String
  restrictedTypes : List String
  restrictedMethods : List String
  whitelistedNamespaces : List String
  whitelistedTypes : List String

namespace TierListing

variable (l : TierListing)

/-- The tier with one rule for each name. -/
def built : Tier :=
  .build l.rank l.name l.restrictedNamespaces l.restrictedTypes l.restrictedMethods l.whitelistedNamespaces
    l.whitelistedTypes

/-- The tier that holds the names as they are written. -/
def read : Tier :=
  ⟨l.rank, l.name, .ofList l.restrictedNamespaces, .ofList l.restrictedTypes, .ofList l.restrictedMethods,
    .ofList l.whitelistedNamespaces, .ofList l.whitelistedTypes⟩

def types : List String := l.restrictedTypes ++ l.whitelistedTypes

variable {l}

theorem built_eq : l.built = { l.read with
    restrictedTypes := .ofList (l.restrictedTypes.map Symbol.stripArraySuffix)
    whitelistedTypes := .ofList (l.whitelistedTypes.map Symbol.stripArraySuffix) } :=
  Tier.build_eq ..

/-- The two tiers are the same if every type is written as it is looked up. -/
theorem built_eq_read (hplain : ∀ type ∈ l.types, Symbol.stripArraySuffix type = type) : l.built = l.read := by
  have hmap : ∀ types ⊆ l.types, types.map Symbol.stripArraySuffix = types := by
    intro types hsubset
    have hid : types.map Symbol.stripArraySuffix = types.map id :=
      List.map_congr_left fun type htype => hplain type (hsubset htype)
    rw [hid, List.map_id]
  rw [built_eq, hmap _ (List.subset_append_left _ _), hmap _ (List.subset_append_right _ _), read]

/-- A name that comes to no listed type, neither as it is written nor as it is looked up, is judged by namespaces
    alone. -/
theorem classify_read_of_not_listed {symbol : String}
    (hsymbol : ∀ type ∈ l.types, Symbol.stripArraySuffix symbol ≠ type ∧
      Symbol.stripArraySuffix symbol ≠ Symbol.stripArraySuffix type) :
    l.read.classify symbol = l.built.classify symbol := by
  have hread : ∀ types ⊆ l.types, ¬ Symbol.stripArraySuffix symbol ∈ NameSet.ofList types := by
    intro types hsubset hmem
    exact (hsymbol _ (hsubset (NameSet.mem_ofList.mp hmem))).1 rfl
  have hbuilt : ∀ types ⊆ l.types,
      ¬ Symbol.stripArraySuffix symbol ∈ NameSet.ofList (types.map Symbol.stripArraySuffix) := by
    intro types hsubset hmem
    obtain ⟨type, htype, heq⟩ := List.mem_map.mp (NameSet.mem_ofList.mp hmem)
    exact (hsymbol type (hsubset htype)).2 heq.symm
  have hrestricted : l.restrictedTypes ⊆ l.types := List.subset_append_left _ _
  have hwhitelisted : l.whitelistedTypes ⊆ l.types := List.subset_append_right _ _
  rw [built_eq, Tier.classify_eq, Tier.classify_eq]
  simp only [Tier.Excepts, Tier.Covers, read, hread _ hrestricted, hread _ hwhitelisted, hbuilt _ hrestricted,
    hbuilt _ hwhitelisted, false_or]

/-- The two tiers of a listing agree on all names if they agree on each listed type and on its array type. -/
theorem classify_read_eq_iff :
    (∀ symbol, l.read.classify symbol = l.built.classify symbol) ↔
      ∀ type ∈ l.types, l.read.classify type = l.built.classify type ∧
        l.read.classify (type ++ "[]") = l.built.classify (type ++ "[]") := by
  constructor
  · exact fun h type _ => ⟨h type, h (type ++ "[]")⟩
  · intro h symbol
    by_cases hlisted : ∃ type ∈ l.types, Symbol.stripArraySuffix symbol = type ∨
        Symbol.stripArraySuffix symbol = Symbol.stripArraySuffix type
    · obtain ⟨type, htype, rfl | hsame⟩ := hlisted
      · have harray := Symbol.stripArraySuffix_array_strip symbol
        rw [← l.read.classify_congr harray, ← l.built.classify_congr harray]
        exact (h _ htype).2
      · rw [l.read.classify_congr hsame, l.built.classify_congr hsame]
        exact (h type htype).1
    · simp only [not_exists, not_and, not_or] at hlisted
      exact classify_read_of_not_listed hlisted

end TierListing

/-! Array types. -/

namespace TypeRef

theorem fullName_arrayOf (element : TypeRef) : element.arrayOf.fullName = element.fullName ++ "[]" := by
  rw [arrayOf, fullName, fullName, Symbol.qualify, Symbol.qualify]
  split
  · rfl
  · exact String.append_assoc.symm

/-- An array of arrays is named by its element type and one group for each of them. -/
theorem fullName_iterate_arrayOf (element : TypeRef) (depth : Nat) :
    (arrayOf^[depth] element).fullName = Symbol.decorate element.fullName (List.replicate depth 0) := by
  induction depth with
  | zero => rw [Symbol.decorate]; simp
  | succ depth ih =>
    rw [Function.iterate_succ_apply', fullName_arrayOf, ih, List.replicate_succ', Symbol.decorate, Symbol.decorate,
      List.flatMap_append, String.ofList_append, String.append_assoc]
    rfl

end TypeRef

namespace Tier

open Text

/-- The tier that restricts one type and nothing else. -/
def restrictingOnly (type : String) : Tier := .build 1 "one" [] [type] [] [] []

theorem bars_restrictingOnly_iff {type name : String} :
    (restrictingOnly type).Bars name ↔ name = Symbol.stripArraySuffix type := by
  have hnone : ∀ name : String, ¬ name ∈ NameSet.ofList [] := fun name h => List.not_mem_nil (NameSet.mem_ofList.mp h)
  have houtside : ¬ (NameSet.ofList []).Contain name := by
    rintro ⟨ns, hns, -⟩
    exact hnone ns hns
  simp [restrictingOnly, build_eq, Bars, Covers, Excepts, hnone, houtside, NameSet.mem_ofList]

/-- Two names that come to different texts are told apart by some tier. -/
theorem classify_alike_iff {symbol other : String} :
    (∀ t : Tier, t.classify symbol = t.classify other) ↔
      Symbol.stripArraySuffix symbol = Symbol.stripArraySuffix other := by
  constructor
  · intro halike
    have hother : (restrictingOnly other).classify other = .restricted :=
      classify_eq_restricted_iff.mpr (bars_restrictingOnly_iff.mpr rfl)
    rw [← halike, classify_eq_restricted_iff, bars_restrictingOnly_iff] at hother
    exact hother
  · exact fun hsame t => t.classify_congr hsame

theorem classify_decorate_alike_iff (symbol : String) (group : Nat) (groups : List Nat) :
    (∀ t : Tier, t.classify (Symbol.decorate symbol (group :: groups)) = t.classify symbol) ↔
      ¬ EndsInBlank symbol.toList := by
  rw [classify_alike_iff, Symbol.stripArraySuffix_decorate, Symbol.stripArraySuffix, String.ofList_inj,
    eq_comm, Symbol.dropArrayGroups_trimEnd_eq_iff]

/-- Array groups behind a name, one or many, are of no account to any tier exactly if the name does not end in a
    blank; so are the array types of a type. -/
theorem array_groups_ignored_iff (symbol : String) (group : Nat) (groups : List Nat) (element : TypeRef)
    (depth : Nat) :
    ((∀ t : Tier, t.classify (Symbol.decorate symbol (group :: groups)) = t.classify symbol) ↔
      ¬ EndsInBlank symbol.toList) ∧
    ((∀ t : Tier, t.classify (TypeRef.arrayOf^[depth + 1] element).fullName = t.classify element.fullName) ↔
      ¬ EndsInBlank element.fullName.toList) := by
  refine ⟨classify_decorate_alike_iff symbol group groups, ?_⟩
  rw [TypeRef.fullName_iterate_arrayOf, List.replicate_succ]
  exact classify_decorate_alike_iff _ _ _

/-- A blank at the end of a name is cut off, the same blank before an array group is not. -/
theorem blank_kept_before_array_group :
    (restrictingOnly "Foo").classify "Foo " = .restricted ∧
      Symbol.decorate "Foo " [0] = "Foo []" ∧
      (restrictingOnly "Foo").classify (Symbol.decorate "Foo " [0]) = .unrestricted := by
  decide +kernel

end Tier

end PluginHost
