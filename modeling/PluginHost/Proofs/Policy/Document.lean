import Mathlib.Data.List.Forall2
import PluginHost.Policy.Codec
import PluginHost.Proofs.Policy.Verdict
import PluginHost.Proofs.Policy.Spelling
import PluginHost.Proofs.Toml.Table
/-!
Policies that are read from documents.

Main statement: a document that lists tiers of different ranks is read as a policy of these tiers with every
name as it is written. So a tier judges as the one that is built from its lists only as far as types are written
the way they are looked up.
-/

namespace PluginHost

open Json (Decoder Field Record Tree)

/-- A list of texts stands under a key. An empty list need not be written. -/
def Toml.ListsTexts (t : Toml.Table) (key : String) (texts : List String) : Prop :=
  Assoc.get? t key = some (.arr (texts.map .str)) ∨ (Assoc.get? t key = none ∧ texts = [])

/-- A table of a document writes a tier down. It may hold other entries too. -/
structure TierListing.WrittenIn (l : TierListing) (t : Toml.Table) : Prop where
  rank : Assoc.get? t "rank" = some (.int l.rank.toNat)
  name : Assoc.get? t "name" = some (.str l.name)
  restrictedNamespaces : Toml.ListsTexts t "restricted_namespaces" l.restrictedNamespaces
  restrictedTypes : Toml.ListsTexts t "restricted_types" l.restrictedTypes
  restrictedMethods : Toml.ListsTexts t "restricted_methods" l.restrictedMethods
  whitelistedNamespaces : Toml.ListsTexts t "whitelisted_namespaces" l.whitelistedNamespaces
  whitelistedTypes : Toml.ListsTexts t "whitelisted_types" l.whitelistedTypes

/-- A document writes some tiers down, in order. -/
def TierListing.AllWrittenIn (listings : List TierListing) (text : String) : Prop :=
  ∃ doc tables, Toml.document? text = some doc ∧
    Assoc.get? doc "tier" = some (.arr (tables.map Toml.Value.table)) ∧
    List.Forall₂ WrittenIn listings tables

namespace TierListing

variable {l : TierListing} {t : Toml.Table} {parts : List (String × Tree)}

theorem reads_nameSet (get : Tier → NameSet) {key : String} {texts : List String}
    (hlookup : parts.lookup key = (Assoc.get? t key).map Toml.Value.tree) (h : Toml.ListsTexts t key texts)
    (depth : Nat) (surplus : Bool) :
    ((Field.nameSet key get).orElse .empty).Reads ⟨depth + 1, surplus⟩ parts (.ofList texts) := by
  rcases h with hfound | ⟨hmissing, rfl⟩
  · refine .part (hlookup.trans (congrArg _ hfound)) ?_
    simp only [Field.orElse, Field.nameSet, Toml.Value.tree, Decoder.nameSet, Decoder.list, Json.Context.enter,
      Option.bind_some, Toml.mapM_text_treeItems, Option.map_some]
  · exact .absent (hlookup.trans (congrArg _ hmissing)) rfl

theorem reads_rank {c : Json.Context} (hlookup : parts.lookup "rank" = (Assoc.get? t "rank").map Toml.Value.tree)
    (h : l.WrittenIn t) : (Field.uint8 "rank" Tier.rank).Reads c parts l.rank := by
  have hdecode : (Field.uint8 "rank" Tier.rank).decode c (Toml.Value.int l.rank.toNat).tree = some l.rank := by
    have hsmall : l.rank.toNat < 256 := l.rank.toNat_lt_size
    simp [Field.uint8, Decoder.uint8, Decoder.intIn, Toml.Value.tree, Toml.ofInt_eq, Json.Number.int?_ofInt,
      Option.filter_some]
    omega
  rw [h.rank, Option.map_some] at hlookup
  exact .part hlookup hdecode

theorem reads_name {c : Json.Context} (hlookup : parts.lookup "name" = (Assoc.get? t "name").map Toml.Value.tree)
    (h : l.WrittenIn t) : (Field.text "name" Tier.name).Reads c parts l.name := by
  rw [h.name, Option.map_some] at hlookup
  exact .part hlookup rfl

/-- A tier is read from its table as it is written there. -/
theorem decode_tree (h : l.WrittenIn t) (hnodup : (t.map (·.1)).Nodup) (depth : Nat) (surplus : Bool) :
    Tier.record.decode ⟨depth + 2, surplus⟩ (Toml.Value.table t).tree = some l.read := by
  obtain ⟨parts, hlookup, hdecode⟩ := Toml.decode_table Tier.record hnodup
  rw [hdecode]
  have hrank : (Field.uint8 "rank" Tier.rank).Reads ⟨depth + 1, surplus⟩ parts l.rank :=
    reads_rank (hlookup _ (by decide +kernel)) h
  have hname : (Field.text "name" Tier.name).Reads ⟨depth + 1, surplus⟩ parts l.name :=
    reads_name (hlookup _ (by decide +kernel)) h
  have hrestrictedNamespaces :=
    reads_nameSet Tier.restrictedNamespaces (hlookup _ (by decide +kernel)) h.restrictedNamespaces depth surplus
  have hrestrictedTypes :=
    reads_nameSet Tier.restrictedTypes (hlookup _ (by decide +kernel)) h.restrictedTypes depth surplus
  have hrestrictedMethods :=
    reads_nameSet Tier.restrictedMethods (hlookup _ (by decide +kernel)) h.restrictedMethods depth surplus
  have hwhitelistedNamespaces :=
    reads_nameSet Tier.whitelistedNamespaces (hlookup _ (by decide +kernel)) h.whitelistedNamespaces depth surplus
  have hwhitelistedTypes :=
    reads_nameSet Tier.whitelistedTypes (hlookup _ (by decide +kernel)) h.whitelistedTypes depth surplus
  exact Record.build_field (Record.build_field (Record.build_field (Record.build_field (Record.build_field
    (Record.build_field (Record.build_field rfl hrank) hname) hrestrictedNamespaces) hrestrictedTypes)
    hrestrictedMethods) hwhitelistedNamespaces) hwhitelistedTypes

theorem decode_tables {listings : List TierListing} {tables : List Toml.Table}
    (h : List.Forall₂ WrittenIn listings tables) (hnodup : ∀ t ∈ tables, (t.map (·.1)).Nodup) (depth : Nat)
    (surplus : Bool) :
    (Toml.treeItems (tables.map .table)).mapM (Tier.record.decode ⟨depth + 2, surplus⟩) =
      some (listings.map read) := by
  induction h with
  | nil => rfl
  | cons hwritten hrest ih =>
    rw [List.forall_mem_cons] at hnodup
    rw [List.map_cons, Toml.treeItems, List.mapM_cons, decode_tree hwritten hnodup.1, ih hnodup.2]
    rfl

/-- A document is read as the tiers that it writes down. -/
theorem ofToml_eq {listings : List TierListing} {text : String} (h : AllWrittenIn listings text) :
    Policy.ofToml text = Policy.ofTiers (listings.map read) := by
  obtain ⟨doc, tables, hdoc, htier, hwritten⟩ := h
  cases Toml.ordered_of_document? hdoc with
  | table hkeys hvalues =>
    have htables : ∀ t ∈ tables, (t.map (·.1)).Nodup := by
      intro t ht
      cases hvalues _ (Assoc.mem_values_of_get? htier) with
      | arr hitems =>
        cases hitems _ (List.mem_map_of_mem ht) with
        | table htable _ => exact Assoc.nodup_keys htable
    obtain ⟨parts, hlookup, hdecode⟩ := Toml.decode_table Policy.record (Assoc.nodup_keys hkeys)
    have hfound : parts.lookup "tier" = some (.arr (Toml.treeItems (tables.map .table))) := by
      rw [hlookup _ (by decide +kernel), htier, Option.map_some, Toml.Value.tree]
    have hread : (Field.list "tier" Policy.tiers Tier.record.encode Tier.record.decode).Reads ⟨999, true⟩ parts
        (listings.map read) :=
      .part hfound (decode_tables hwritten htables 996 true)
    have hbuild : Policy.record.build ⟨999, true⟩ parts = some ⟨listings.map read⟩ :=
      Record.build_field rfl hread
    rw [Policy.ofToml, hdoc]
    simp only [Option.bind_some, Toml.context, hdecode, hbuild]

/-- Each tier that a document writes down is found under its rank, as it is written. -/
theorem exists_tier_of_document {listings : List TierListing} {text : String}
    (hwritten : AllWrittenIn listings text) (hranks : (listings.map rank).Nodup) {l : TierListing}
    (hmem : l ∈ listings) : ∃ policy, Policy.ofToml text = .ok policy ∧ policy.tier l.rank = .ok l.read := by
  have hnodup : ((listings.map read).map Tier.rank).Nodup := by
    rw [List.map_map]
    exact hranks
  have hne : listings.map read ≠ [] := List.ne_nil_of_mem (List.mem_map_of_mem hmem)
  have hperm := (listings.map read).mergeSort_perm fun t u => decide (t.rank ≤ u.rank)
  refine ⟨_, (ofToml_eq hwritten).trans (Policy.ofTiers_eq_ok hne hnodup), ?_⟩
  exact (Policy.tier_eq_ok_iff ((hperm.map Tier.rank).nodup_iff.mpr hnodup)).mpr
    ⟨hperm.mem_iff.mpr (List.mem_map_of_mem hmem), rfl⟩

/-- A tier that is read from a document judges methods as the one that is built from its lists, and names too if
    every type is written as it is looked up. Otherwise the two agree on all names exactly if they do so on each
    listed type and its array type. -/
theorem judged_as_built_iff {listings : List TierListing} {text : String} (hwritten : AllWrittenIn listings text)
    (hranks : (listings.map rank).Nodup) {l : TierListing} (hmem : l ∈ listings) :
    ∃ policy tier, Policy.ofToml text = .ok policy ∧ policy.tier l.rank = .ok tier ∧
      (∀ method, tier.isMethodRestricted method = l.built.isMethodRestricted method) ∧
      ((∀ type ∈ l.types, Symbol.stripArraySuffix type = type) →
        ∀ symbol, tier.classify symbol = l.built.classify symbol) ∧
      ((∀ symbol, tier.classify symbol = l.built.classify symbol) ↔
        ∀ type ∈ l.types, tier.classify type = l.built.classify type ∧
          tier.classify (type ++ "[]") = l.built.classify (type ++ "[]")) := by
  obtain ⟨policy, hpolicy, htier⟩ := exists_tier_of_document hwritten hranks hmem
  refine ⟨policy, l.read, hpolicy, htier, fun method => ?_, fun hplain symbol => ?_, classify_read_eq_iff⟩
  · rw [built_eq]
    rfl
  · rw [built_eq_read hplain]

end TierListing

namespace ArrayRule

/-- A tier whose only rule restricts a type. -/
def listing (rank : UInt8) (name type : String) : TierListing := ⟨rank, name, [], [type], [], [], []⟩

def table (rank : UInt8) (name type : String) : Toml.Table :=
  [("name", .str name), ("rank", .int rank.toNat), ("restricted_types", .arr [.str type])]

theorem writtenIn_table (rank : UInt8) (name type : String) :
    (listing rank name type).WrittenIn (table rank name type) where
  rank := rfl
  name := rfl
  restrictedNamespaces := .inr ⟨rfl, rfl⟩
  restrictedTypes := .inl rfl
  restrictedMethods := .inr ⟨rfl, rfl⟩
  whitelistedNamespaces := .inr ⟨rfl, rfl⟩
  whitelistedTypes := .inr ⟨rfl, rfl⟩

def plain : TierListing := listing 1 "plain" "Mods.Gun"

/-- The type is spelled as an array type. -/
def array : TierListing := listing 2 "array" "Mods.Gun[]"

/-- The document of the two tiers. -/
def document : String :=
  "[[tier]]\nrank = 1\nname = \"plain\"\nrestricted_types = [\"Mods.Gun\"]\n\n" ++
    "[[tier]]\nrank = 2\nname = \"array\"\nrestricted_types = [\"Mods.Gun[]\"]\n"

theorem allWrittenIn_document : TierListing.AllWrittenIn [plain, array] document :=
  ⟨[("tier", .arr [.table (table 1 "plain" "Mods.Gun"), .table (table 2 "array" "Mods.Gun[]")])],
    [table 1 "plain" "Mods.Gun", table 2 "array" "Mods.Gun[]"], by decide +kernel, rfl,
    .cons (writtenIn_table ..) (.cons (writtenIn_table ..) .nil)⟩

/-- What is read as a plain rule restricts what the built rule restricts. -/
theorem plain_rule_kept :
    TierListing.AllWrittenIn [plain, array] document ∧ ([plain, array].map TierListing.rank).Nodup ∧
      plain ∈ [plain, array] ∧
      ∃ policy tier, Policy.ofToml document = .ok policy ∧ policy.tier 1 = .ok tier ∧
        ∀ symbol, tier.classify symbol = plain.built.classify symbol := by
  have hranks : ([plain, array].map TierListing.rank).Nodup := by decide
  have hmem : plain ∈ [plain, array] := List.mem_cons_self
  obtain ⟨policy, tier, hpolicy, htier, -, hplain, -⟩ :=
    TierListing.judged_as_built_iff allWrittenIn_document hranks hmem
  exact ⟨allWrittenIn_document, hranks, hmem, policy, tier, hpolicy, htier, hplain (by decide +kernel)⟩

/-- A rule for an array type restricts its element type where the tier is built, and nothing where it is read. -/
theorem array_rule_lost :
    TierListing.AllWrittenIn [plain, array] document ∧
      ∃ policy tier, Policy.ofToml document = .ok policy ∧ policy.tier 2 = .ok tier ∧
        ∀ symbol ∈ ["Mods.Gun[]", "Mods.Gun"],
          array.built.classify symbol = .restricted ∧ tier.classify symbol = .unrestricted := by
  obtain ⟨policy, hpolicy, htier⟩ :=
    TierListing.exists_tier_of_document allWrittenIn_document (by decide) (List.mem_cons_of_mem _ List.mem_cons_self)
  exact ⟨allWrittenIn_document, policy, array.read, hpolicy, htier, by decide +kernel⟩

end ArrayRule

end PluginHost
