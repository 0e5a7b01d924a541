import Mathlib.Data.List.Forall2
import Mathlib.Data.List.Perm.Basic
import PluginHost.Compliance.Analysis
import PluginHost.Proofs.Compliance.Mentions
/-!
Where violations stand, and the order in which an image is written.

Source lines come from debug symbols, and symbols may be missing or false. They are read for the location
of a violation alone. Modules, types, methods and what methods hold may stand in any order, and a type in any
module. Main statements: whatever symbols an image is analyzed with, the same names are found at the same sites
for the same reasons, and the same images pass; an analysis finds the same violations, each as often, in
whatever order the image is written.
-/

namespace PluginHost

/-- The same violation at another location. -/
def Violation.movedTo (location : String) (v : Violation) : Violation := { v with location }

theorem Tier.restricts_movedTo {tier : Tier} {location : String} {v : Violation} :
    tier.Restricts (v.movedTo location) ↔ tier.Restricts v := Iff.rfl

/-- The verdict of a test goes by how many violations were found. -/
theorem TierResult.ofViolations_verdict {rank : UInt8} {found found' : List Violation}
    (hlength : found'.length = found.length) :
    let result := ofViolations rank found
    let result' := ofViolations rank found'
    result'.passed = result.passed ∧ result'.tested = result.tested ∧ result'.tier = result.tier := by
  refine ⟨?_, rfl, rfl⟩
  change found'.isEmpty = found.isEmpty
  rw [Bool.eq_iff_iff, List.isEmpty_iff_length_eq_zero, List.isEmpty_iff_length_eq_zero, hlength]

namespace Analysis

/-- Two violations found at one site of an image, each located by symbols of its own. All else is the same. -/
structure SameFinding (image : Image) (symbols symbols' : Option Symbols) (v v' : Violation) : Prop where
  site : ∃ site ∈ sites image, v.location = site.location symbols ∧ v'.location = site.location symbols'
  offendingName : v'.offendingName = v.offendingName
  reason : v'.reason = v.reason
  isGenericArgument : v'.isGenericArgument = v.isGenericArgument

theorem typeMentions_eq_map (location location' : String) (isArgument : Bool) (root : TypeRef) :
    typeMentions location' isArgument root =
      (typeMentions location isArgument root).map (·.movedTo location') := by
  rw [typeMentions, typeMentions, List.map_map]
  rfl

/-- The symbols give the location of what is mentioned at a site, and the site gives the rest. -/
theorem siteMentions_eq_map (symbols symbols' : Option Symbols) (site : Site) :
    siteMentions symbols' site =
      (siteMentions symbols site).map (·.movedTo (site.location symbols')) := by
  rw [siteMentions, siteMentions, List.map_append, List.map_flatMap, List.map_map]
  congr 1
  congr 1
  funext t
  exact typeMentions_eq_map _ _ t.2 t.1

theorem location_of_mem_siteMentions {symbols : Option Symbols} {site : Site} {v : Violation}
    (hv : v ∈ siteMentions symbols site) : v.location = site.location symbols := by
  rw [siteMentions_eq_map symbols symbols] at hv
  obtain ⟨u, _, rfl⟩ := List.mem_map.mp hv
  rfl

theorem siteViolations_eq_map (tier : Tier) (symbols symbols' : Option Symbols) (site : Site) :
    siteViolations tier symbols' site =
      (siteViolations tier symbols site).map (·.movedTo (site.location symbols')) := by
  rw [siteViolations, siteViolations, siteMentions_eq_map symbols symbols', List.filter_map]
  simp only [Function.comp_def, Tier.restricts_movedTo]

theorem violations_eq_flatMap_sites (tier : Tier) (image : Image) (symbols : Option Symbols) :
    violations tier image symbols = (sites image).flatMap (siteViolations tier symbols) := by
  rw [violations_eq_filter_mentions, mentions, List.filter_flatMap]
  rfl

theorem siteViolations_sameFinding (tier : Tier) {image : Image} (symbols symbols' : Option Symbols)
    {site : Site} (hsite : site ∈ sites image) :
    List.Forall₂ (SameFinding image symbols symbols') (siteViolations tier symbols site)
      (siteViolations tier symbols' site) := by
  rw [siteViolations_eq_map tier symbols symbols', List.forall₂_map_right_iff, List.forall₂_same]
  intro v hv
  have hlocation := location_of_mem_siteMentions (List.mem_of_mem_filter hv)
  exact ⟨⟨site, hsite, hlocation, rfl⟩, rfl, rfl, rfl⟩

theorem violations_sameFinding (tier : Tier) (image : Image) (symbols symbols' : Option Symbols) :
    List.Forall₂ (SameFinding image symbols symbols') (violations tier image symbols)
      (violations tier image symbols') := by
  rw [violations_eq_flatMap_sites, violations_eq_flatMap_sites]
  have hsites : List.Forall₂ (fun site site' => site = site' ∧ site ∈ sites image) (sites image)
      (sites image) := List.forall₂_same.mpr fun _ hsite => ⟨rfl, hsite⟩
  refine List.rel_flatMap hsites ?_
  rintro site _ ⟨rfl, hsite⟩
  exact siteViolations_sameFinding tier symbols symbols' hsite

/-- Symbols never change a verdict. With any two choices of symbols, or with none, an analysis finds as many
    violations, and one by one they are the same but for how the symbols locate the site at which both stand.
    So both pass or neither does. No table needs to be in order or to describe the image. -/
theorem verdict_independent_of_symbols (tier : Tier) (image : Image) (symbols symbols' : Option Symbols) :
    let result := ofImage tier image symbols
    let result' := ofImage tier image symbols'
    result'.violations.length = result.violations.length ∧
    List.Forall₂ (SameFinding image symbols symbols') result.violations result'.violations ∧
    result'.passed = result.passed ∧ result'.tested = result.tested ∧ result'.tier = result.tier := by
  intro result result'
  have hfound : List.Forall₂ (SameFinding image symbols symbols') result.violations
      result'.violations := violations_sameFinding tier image symbols symbols'
  have hlength := hfound.length_eq.symm
  exact ⟨hlength, hfound, TierResult.ofViolations_verdict hlength⟩

end Analysis

/-! The order in which an image is written. -/

/-- The second list is the first in another order, each item replaced by one that is related to it. -/
def RearrangedBy {α : Type} (related : α → α → Prop) (items items' : List α) : Prop :=
  ∃ moved, items.Perm moved ∧ List.Forall₂ related moved items'

theorem RearrangedBy.perm_flatMap {α β : Type} {related : α → α → Prop} {items items' : List α}
    (h : RearrangedBy related items items') {f : α → List β}
    (hf : ∀ a a', related a a' → (f a).Perm (f a')) : (items.flatMap f).Perm (items'.flatMap f) := by
  obtain ⟨moved, hmoved, hrelated⟩ := h
  refine (hmoved.flatMap_right f).trans (List.Perm.flatten_congr ?_)
  rw [List.forall₂_map_left_iff, List.forall₂_map_right_iff]
  exact hrelated.imp hf

/-- Two methods that differ at most in the order of annotations, local variables and instructions. -/
structure MethodDef.Rearranged (m m' : MethodDef) : Prop where
  token : m'.token = m.token
  name : m'.name = m.name
  returnType : m'.returnType = m.returnType
  parameters : m'.parameters = m.parameters
  annotations : m.annotations.Perm m'.annotations
  locals : m.locals.Perm m'.locals
  body : m.body.Perm m'.body

/-- Two types that differ at most in the order of annotations and methods, and of what the methods hold. -/
structure TypeDef.Rearranged (t t' : TypeDef) : Prop where
  ns : t'.ns = t.ns
  name : t'.name = t.name
  baseType : t'.baseType = t.baseType
  isAbstract : t'.isAbstract = t.isAbstract
  isInterface : t'.isInterface = t.isInterface
  fields : t'.fields = t.fields
  annotations : t.annotations.Perm t'.annotations
  methods : RearrangedBy MethodDef.Rearranged t.methods t'.methods

/-- Two images with the same types up to order. Modules are no more than places for types here: they may
    stand in any order, and any type may stand in any of them. -/
def Image.Rearranged (image image' : Image) : Prop :=
  RearrangedBy TypeDef.Rearranged image.types image'.types

theorem TypeDef.Rearranged.fullName {t t' : TypeDef} (h : t.Rearranged t') : t'.fullName = t.fullName := by
  rw [TypeDef.fullName, TypeDef.fullName, h.ns, h.name]

namespace Analysis

variable (tier : Tier) (symbols : Option Symbols)

/-- The location of an instruction goes by its offset, that of a local variable by its index. Neither
    depends on where it stands. -/
theorem methodViolations_perm (owner : String) {m m' : MethodDef} (h : m.Rearranged m') :
    (methodViolations tier symbols owner m).Perm (methodViolations tier symbols owner m') := by
  rw [methodViolations, methodViolations, h.name, h.token]
  have hannotations := h.annotations.flatMap_right (annotationViolations tier
    (methodLocation symbols (owner ++ "::" ++ m.name) m.token))
  exact (hannotations.append (h.locals.flatMap_right _)).append (h.body.flatMap_right _)

theorem definitionViolations_perm {t t' : TypeDef} (h : t.Rearranged t') :
    (definitionViolations tier symbols t).Perm (definitionViolations tier symbols t') := by
  rw [definitionViolations, definitionViolations, h.fullName]
  have hmethods := h.methods.perm_flatMap fun _ _ => methodViolations_perm tier symbols t.fullName
  exact (h.annotations.flatMap_right _).append hmethods

theorem violations_perm {image image' : Image} (h : image.Rearranged image') :
    (violations tier image symbols).Perm (violations tier image' symbols) :=
  h.perm_flatMap fun _ _ => definitionViolations_perm tier symbols

/-- The order in which an image is written changes the order of a report and nothing else. However modules,
    types, methods, annotations, local variables and instructions are rearranged, all at once, every
    violation is found as often as before, at the same location, and the image passes if it did before. -/
theorem report_of_rearranged {image image' : Image} (h : image.Rearranged image') :
    let result := ofImage tier image symbols
    let result' := ofImage tier image' symbols
    result.violations.Perm result'.violations ∧ result'.passed = result.passed ∧
      result'.tested = result.tested ∧ result'.tier = result.tier := by
  intro result result'
  have hviolations : result.violations.Perm result'.violations := violations_perm tier symbols h
  have hpassed : result'.passed = result.passed := by
    change result'.violations.isEmpty = result.violations.isEmpty
    exact hviolations.symm.isEmpty_eq
  exact ⟨hviolations, hpassed, rfl, rfl⟩

/-- Two types change places and modules, the methods of one change places, and so do the annotations, local
    variables and instructions of a method: the report lists the same six violations in another order. -/
theorem report_of_rearranged_every_level :
    let tier := ((Tier.empty 1 "files").restrictNamespace "System.IO").restrictMethod "Game.Disk::Erase"
    let file : TypeRef := .named "System.IO" "File"
    let stream : TypeRef := .named "System.IO" "Stream"
    let void : TypeRef := .named "System" "Void"
    let note (t : TypeRef) : Annotation := ⟨t, []⟩
    let read : Instruction := ⟨0, "ldtoken", .type file⟩
    let erase : Instruction := ⟨4, "call", .method ⟨.named "Game" "Disk", "Erase", void, [], []⟩⟩
    let run : MethodDef :=
      ⟨7, "Run", void, [], [note file, note stream], [⟨0, stream⟩, ⟨1, void⟩], [read, erase]⟩
    let run' : MethodDef := { run with
      annotations := [note stream, note file]
      locals := [⟨1, void⟩, ⟨0, stream⟩]
      body := [erase, read] }
    let idle : MethodDef := ⟨8, "Idle", void, [], [], [], []⟩
    let writer : TypeDef := ⟨"Mods", "Writer", none, false, false, [note stream], [], [run, idle]⟩
    let writer' : TypeDef := { writer with methods := [idle, run'] }
    let plain : TypeDef := ⟨"Mods", "Plain", none, false, false, [], [], []⟩
    let image : Image := ⟨"mods", [⟨"first", [writer, plain]⟩, ⟨"second", []⟩]⟩
    let image' : Image := ⟨"mods", [⟨"second", [plain]⟩, ⟨"first", [writer']⟩]⟩
    let symbols : Option Symbols :=
      some ⟨.ofList [(7, [⟨2, "mods.cs", 10, 12⟩, ⟨0, "mods.cs", 9, 9⟩])]⟩
    image.Rearranged image' ∧
      (ofImage tier image symbols).violations.length = 6 ∧
      (ofImage tier image symbols).violations ≠ (ofImage tier image' symbols).violations ∧
      (ofImage tier image symbols).violations.Perm (ofImage tier image' symbols).violations ∧
      (ofImage tier image' symbols).passed = (ofImage tier image symbols).passed := by
  intro tier file stream void note read erase run run' idle writer writer' plain image image' symbols
  have hrun : run.Rearranged run' :=
    ⟨rfl, rfl, rfl, rfl, .swap _ _ _, .swap _ _ _, .swap _ _ _⟩
  have hidle : idle.Rearranged idle := ⟨rfl, rfl, rfl, rfl, .refl _, .refl _, .refl _⟩
  have hwriter : writer.Rearranged writer' :=
    ⟨rfl, rfl, rfl, rfl, rfl, rfl, .refl _, [idle, run], .swap _ _ _, .cons hidle (.cons hrun .nil)⟩
  have hplain : plain.Rearranged plain :=
    ⟨rfl, rfl, rfl, rfl, rfl, rfl, .refl _, [], .refl _, .nil⟩
  have himage : image.Rearranged image' :=
    ⟨[plain, writer], .swap _ _ _, .cons hplain (.cons hwriter .nil)⟩
  obtain ⟨hperm, hpassed, _⟩ := report_of_rearranged tier symbols himage
  exact ⟨himage, by decide +kernel, by decide +kernel, hperm, hpassed⟩

end Analysis

end PluginHost
