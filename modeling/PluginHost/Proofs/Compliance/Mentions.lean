import PluginHost.Compliance.Analysis
import PluginHost.Proofs.Image.Occurrence
/-!
Mentions: every name that an image refers to, and where.

A mention is written as the violation that it is under a tier that restricts its name. Main
statements: the violations of a tier are the mentions that it restricts, in the same order; and what
is mentioned is what stands at a site of the image or inside of a type that stands there.
-/

namespace PluginHost

/-- The types that an annotation names: its own and those of its constructor arguments. -/
def Annotation.types (a : Annotation) : List TypeRef := a.annotationType :: a.argumentTypes

namespace Operand

/-- The types that an operand names. The mark tells the generic arguments of a call from the others. -/
def names : Operand → List (TypeRef × Bool)
  | .field f => [(f.declaringType, false), (f.fieldType, false)]
  | .method m => (m.declaringType, false) :: m.genericArguments.map fun t => (t, true)
  | .type t => [(t, false)]
  | .none | .integer _ | .text _ => []

def call? : Operand → Option MethodRef
  | .method m => some m
  | _ => Option.none

end Operand

/-- What a tier restricts: types by their classification, methods by name. -/
def Tier.Restricts (tier : Tier) (v : Violation) : Prop :=
  match v.reason with
  | .restrictedType => tier.classify v.offendingName = .restricted
  | .restrictedMethod => v.offendingName ∈ tier.restrictedMethods

instance (tier : Tier) : DecidablePred tier.Restricts
  | ⟨_, name, .restrictedType, _⟩ => inferInstanceAs (Decidable (tier.classify name = .restricted))
  | ⟨_, name, .restrictedMethod, _⟩ => inferInstanceAs (Decidable (name ∈ tier.restrictedMethods))

namespace Analysis

/-- A place in an image at which names stand. -/
inductive Site where
  | definition (owner : TypeDef)
  | method (owner : TypeDef) (m : MethodDef)
  | localVariable (owner : TypeDef) (m : MethodDef) (l : LocalVariable)
  | instruction (owner : TypeDef) (m : MethodDef) (i : Instruction)

namespace Site

def location (symbols : Option Symbols) : Site → String
  | definition owner => owner.fullName
  | method owner m => methodLocation symbols (owner.fullName ++ "::" ++ m.name) m.token
  | localVariable owner m l =>
    methodLocation symbols (owner.fullName ++ "::" ++ m.name) m.token ++ " local #" ++
      Fault.number l.index.toNat
  | instruction owner m i =>
    instructionLocation symbols (owner.fullName ++ "::" ++ m.name) m.token i.offset

/-- The types that are named at a site: those of all annotations of a type or method, the type of a
    local variable, those of an operand. -/
def names : Site → List (TypeRef × Bool)
  | definition owner => (owner.annotations.flatMap Annotation.types).map fun t => (t, false)
  | method _ m => (m.annotations.flatMap Annotation.types).map fun t => (t, false)
  | localVariable _ _ l => [(l.variableType, false)]
  | instruction _ _ i => i.operand.names

def call? : Site → Option MethodRef
  | instruction _ _ i => i.operand.call?
  | _ => none

/-- The sites of a method: itself, its local variables and its instructions. -/
def ofMethod (owner : TypeDef) (m : MethodDef) : List Site :=
  method owner m :: (m.locals.map (localVariable owner m) ++ m.body.map (instruction owner m))

/-- The sites of a type: itself and those of its methods. -/
def ofDefinition (owner : TypeDef) : List Site :=
  definition owner :: owner.methods.flatMap (ofMethod owner)

end Site

/-- The sites of an image in the order in which they are looked at. -/
def sites (image : Image) : List Site :=
  image.modules.flatMap fun module => module.types.flatMap Site.ofDefinition

/-- What an image refers to. A type that stands inside another one is a generic argument, wherever
    the outer one stands. -/
inductive Mentioned (image : Image) (symbols : Option Symbols) : Violation → Prop
  | root {site : Site} {t : TypeRef} {isArgument : Bool} :
    site ∈ sites image → (t, isArgument) ∈ site.names →
    Mentioned image symbols ⟨site.location symbols, t.fullName, .restrictedType, isArgument⟩
  | nested {site : Site} {root t : TypeRef} {isArgument : Bool} :
    site ∈ sites image → (root, isArgument) ∈ site.names → t.Nested root →
    Mentioned image symbols ⟨site.location symbols, t.fullName, .restrictedType, true⟩
  | call {site : Site} {ref : MethodRef} :
    site ∈ sites image → site.call? = some ref →
    Mentioned image symbols ⟨site.location symbols, ref.plainName, .restrictedMethod, false⟩

/-- The mentions of a type and of what stands inside it. -/
def typeMentions (location : String) (isArgument : Bool) (root : TypeRef) : List Violation :=
  root.flatten.map fun (t, isRoot) =>
    ⟨location, t.fullName, .restrictedType, isArgument || !isRoot⟩

def callMention (location : String) (ref : MethodRef) : Violation :=
  ⟨location, ref.plainName, .restrictedMethod, false⟩

def siteMentions (symbols : Option Symbols) (site : Site) : List Violation :=
  (site.names.flatMap fun (t, isArgument) => typeMentions (site.location symbols) isArgument t) ++
    site.call?.toList.map (callMention (site.location symbols))

/-- The mentions of an image in the order in which they are met. -/
def mentions (image : Image) (symbols : Option Symbols) : List Violation :=
  (sites image).flatMap (siteMentions symbols)

theorem mem_typeMentions_iff {location : String} {isArgument : Bool} {root : TypeRef}
    {v : Violation} :
    v ∈ typeMentions location isArgument root ↔
      v = ⟨location, root.fullName, .restrictedType, isArgument⟩ ∨
        ∃ t : TypeRef, t.Nested root ∧ v = ⟨location, t.fullName, .restrictedType, true⟩ := by
  simp only [typeMentions, List.mem_map, Prod.exists, TypeRef.mem_flatten_iff]
  constructor
  · rintro ⟨t, isRoot, ⟨rfl, rfl⟩ | ⟨hnested, rfl⟩, rfl⟩
    · exact Or.inl (by simp)
    · exact Or.inr ⟨t, hnested, by simp⟩
  · rintro (rfl | ⟨t, hnested, rfl⟩)
    · exact ⟨root, true, Or.inl ⟨rfl, rfl⟩, by simp⟩
    · exact ⟨t, false, Or.inr ⟨hnested, rfl⟩, by simp⟩

/-- The list of mentions holds what is mentioned and nothing else. -/
theorem mem_mentions_iff {image : Image} {symbols : Option Symbols} {v : Violation} :
    v ∈ mentions image symbols ↔ Mentioned image symbols v := by
  simp only [mentions, siteMentions, List.mem_flatMap, List.mem_append, List.mem_map,
    Option.mem_toList, Prod.exists, mem_typeMentions_iff]
  constructor
  · rintro ⟨site, hsite, ⟨t, isArgument, hnames, rfl | ⟨u, hnested, rfl⟩⟩ | ⟨ref, hcall, rfl⟩⟩
    · exact .root hsite hnames
    · exact .nested hsite hnames hnested
    · exact .call hsite hcall
  · rintro (⟨hsite, hnames⟩ | ⟨hsite, hnames, hnested⟩ | ⟨hsite, hcall⟩)
    · exact ⟨_, hsite, Or.inl ⟨_, _, hnames, Or.inl rfl⟩⟩
    · exact ⟨_, hsite, Or.inl ⟨_, _, hnames, Or.inr ⟨_, hnested, rfl⟩⟩⟩
    · exact ⟨_, hsite, Or.inr ⟨_, hcall, rfl⟩⟩

variable (tier : Tier)

theorem typeViolation_eq_guard (location : String) (isArgument : Bool) (t : TypeRef) :
    typeViolation tier location isArgument t =
      Option.guard tier.Restricts ⟨location, t.fullName, .restrictedType, isArgument⟩ := by
  by_cases h : tier.classify t.fullName = .restricted <;>
    simp [typeViolation, Option.guard, Tier.Restricts, Verdict.isRestricted, h]

theorem typeViolations_eq_filter (location : String) (root : TypeRef) :
    typeViolations tier location root = (typeMentions location false root).filter tier.Restricts := by
  simp only [typeViolations, typeMentions, typeViolation_eq_guard, Bool.false_or]
  rw [← List.filterMap_eq_filter, List.filterMap_map]
  rfl

theorem argumentViolations_eq_filter (location : String) (root : TypeRef) :
    argumentViolations tier location root =
      (typeMentions location true root).filter tier.Restricts := by
  simp only [argumentViolations, typeMentions, typeViolation_eq_guard, Bool.true_or]
  rw [← List.filterMap_eq_filter, List.filterMap_map]
  rfl

theorem callViolations_eq_filter (location : String) (ref : MethodRef) :
    callViolations tier location ref = [callMention location ref].filter tier.Restricts := by
  by_cases h : ref.plainName ∈ tier.restrictedMethods <;>
    simp [callViolations, callMention, Tier.isMethodRestricted, Tier.Restricts, h]

/-- The violations of a tier at one site. -/
def siteViolations (symbols : Option Symbols) (site : Site) : List Violation :=
  (siteMentions symbols site).filter tier.Restricts

theorem annotationViolations_eq_filter (location : String) (as : List Annotation) :
    as.flatMap (annotationViolations tier location) =
      ((as.flatMap Annotation.types).flatMap (typeMentions location false)).filter tier.Restricts := by
  rw [List.filter_flatMap, List.flatMap_assoc]
  congr 1
  funext a
  rw [annotationViolations, Annotation.types, List.flatMap_cons, typeViolations_eq_filter]
  congr 2
  funext t
  rw [typeViolations_eq_filter]

theorem siteViolations_definition (symbols : Option Symbols) (owner : TypeDef) :
    siteViolations tier symbols (.definition owner) =
      owner.annotations.flatMap (annotationViolations tier owner.fullName) := by
  rw [annotationViolations_eq_filter]
  simp [siteViolations, siteMentions, Site.names, Site.call?, Site.location, List.flatMap_map]

theorem siteViolations_method (symbols : Option Symbols) (owner : TypeDef) (m : MethodDef) :
    siteViolations tier symbols (.method owner m) =
      m.annotations.flatMap (annotationViolations tier
        (methodLocation symbols (owner.fullName ++ "::" ++ m.name) m.token)) := by
  rw [annotationViolations_eq_filter]
  simp [siteViolations, siteMentions, Site.names, Site.call?, Site.location, List.flatMap_map]

theorem siteViolations_localVariable (symbols : Option Symbols) (owner : TypeDef) (m : MethodDef)
    (l : LocalVariable) :
    siteViolations tier symbols (.localVariable owner m l) =
      typeViolations tier (methodLocation symbols (owner.fullName ++ "::" ++ m.name) m.token ++
        " local #" ++ Fault.number l.index.toNat) l.variableType := by
  rw [typeViolations_eq_filter]
  simp [siteViolations, siteMentions, Site.names, Site.call?, Site.location]

theorem operandViolations_eq_filter (location : String) (o : Operand) :
    operandViolations tier location o =
      ((o.names.flatMap fun (t, isArgument) => typeMentions location isArgument t) ++
        o.call?.toList.map (callMention location)).filter tier.Restricts := by
  cases o with
  | none => rfl
  | integer n => rfl
  | text s => rfl
  | field f => simp [operandViolations, Operand.names, Operand.call?, typeViolations_eq_filter]
  | method ref =>
    have harguments : ref.genericArguments.flatMap (argumentViolations tier location) =
        (ref.genericArguments.flatMap (typeMentions location true)).filter tier.Restricts := by
      rw [List.filter_flatMap]
      congr 1
      funext t
      rw [argumentViolations_eq_filter]
    simp [operandViolations, Operand.names, Operand.call?, typeViolations_eq_filter,
      callViolations_eq_filter, harguments, List.flatMap_map]
  | type t => simp [operandViolations, Operand.names, Operand.call?, typeViolations_eq_filter]

theorem siteViolations_instruction (symbols : Option Symbols) (owner : TypeDef) (m : MethodDef)
    (i : Instruction) :
    siteViolations tier symbols (.instruction owner m i) =
      operandViolations tier
        (instructionLocation symbols (owner.fullName ++ "::" ++ m.name) m.token i.offset)
        i.operand := by
  rw [operandViolations_eq_filter]
  rfl

theorem methodViolations_eq_flatMap (symbols : Option Symbols) (owner : TypeDef) (m : MethodDef) :
    methodViolations tier symbols owner.fullName m =
      (Site.ofMethod owner m).flatMap (siteViolations tier symbols) := by
  rw [Site.ofMethod, List.flatMap_cons, List.flatMap_append, List.flatMap_map, List.flatMap_map]
  simp only [siteViolations_method, siteViolations_localVariable, siteViolations_instruction]
  rw [methodViolations, List.append_assoc]

theorem definitionViolations_eq_flatMap (symbols : Option Symbols) (owner : TypeDef) :
    definitionViolations tier symbols owner =
      (Site.ofDefinition owner).flatMap (siteViolations tier symbols) := by
  rw [Site.ofDefinition, List.flatMap_cons, List.flatMap_assoc, siteViolations_definition]
  simp only [← methodViolations_eq_flatMap]
  rw [definitionViolations]

/-- A tier sees every mention that it restricts, and reports it as it stands. -/
theorem violations_eq_filter_mentions (image : Image) (symbols : Option Symbols) :
    violations tier image symbols = (mentions image symbols).filter tier.Restricts := by
  rw [mentions, List.filter_flatMap, sites, violations, Image.types, List.flatMap_assoc,
    List.flatMap_assoc]
  simp only [List.flatMap_assoc]
  congr 1
  funext module
  congr 1
  funext owner
  exact definitionViolations_eq_flatMap tier symbols owner

/-- An analysis reports every restricted name that stands in an image, at any depth of generic
    arguments, and reports nothing else. So exactly the images that mention nothing restricted pass. -/
theorem mem_violations_iff_mentioned (tier : Tier) (image : Image) (symbols : Option Symbols) :
    (∀ v, v ∈ (ofImage tier image symbols).violations ↔
      Mentioned image symbols v ∧ tier.Restricts v) ∧
    ((ofImage tier image symbols).passed = true ↔
      ∀ v, Mentioned image symbols v → ¬ tier.Restricts v) := by
  have hmem : ∀ v, v ∈ violations tier image symbols ↔
      Mentioned image symbols v ∧ tier.Restricts v := by
    intro v
    rw [violations_eq_filter_mentions, List.mem_filter, mem_mentions_iff, decide_eq_true_iff]
  refine ⟨hmem, ?_⟩
  change (violations tier image symbols).isEmpty = true ↔ _
  rw [List.isEmpty_iff, List.eq_nil_iff_forall_not_mem]
  simp only [hmem, not_and]

/-- A method that loads code, and that is given lists of lists of processes: the type that is restricted stands two
    generic arguments deep. A tier without rules about either lets the image pass. -/
theorem nested_process_reported :
    let void : TypeRef := .named "System" "Void"
    let process : TypeRef := .named "System.Diagnostics" "Process"
    let listOf (t : TypeRef) : TypeRef := ⟨"System.Collections.Generic", "List", [t]⟩
    let take : MethodRef := ⟨.named "Game" "Pool", "Take", void, [], [listOf (listOf process)]⟩
    let load : MethodRef := ⟨.named "System.Reflection" "Assembly", "Load", void, [], []⟩
    let run : MethodDef :=
      ⟨7, "Run", void, [], [], [], [⟨4, "call", .method take⟩, ⟨9, "call", .method load⟩]⟩
    let jump : TypeDef := ⟨"Mods", "Jump", none, false, false, [], [], [run]⟩
    let image : Image := ⟨"mods", [⟨"mods", [jump]⟩]⟩
    let nested : Violation := ⟨"Mods.Jump::Run IL_0004", "System.Diagnostics.Process", .restrictedType, true⟩
    let loaded : Violation :=
      ⟨"Mods.Jump::Run IL_0009", "System.Reflection.Assembly::Load", .restrictedMethod, false⟩
    let result := ofImage Policy.systemTier image none
    nested ∈ result.violations ∧ loaded ∈ result.violations ∧ result.passed = false ∧
      (ofImage Policy.trustedTier image none).passed = true := by
  intro void process listOf take load run jump image nested loaded result
  obtain ⟨hviolations, hpassed⟩ := mem_violations_iff_mentioned Policy.systemTier image none
  have hnested : nested ∈ result.violations := by
    let site : Site := .instruction jump run ⟨4, "call", .method take⟩
    have hsite : site ∈ sites image := by simp [site, sites, Site.ofDefinition, Site.ofMethod, image, jump, run]
    have hnames : (listOf (listOf process), true) ∈ site.names := by decide
    have hprocess : process.Nested (listOf (listOf process)) :=
      .deeper List.mem_cons_self (.argument List.mem_cons_self)
    have hlocation : site.location none = nested.location := by decide +kernel
    have hmentioned : Mentioned image none ⟨site.location none, process.fullName, .restrictedType, true⟩ :=
      .nested hsite hnames hprocess
    rw [hlocation] at hmentioned
    exact (hviolations nested).mpr ⟨hmentioned, by decide +kernel⟩
  have hloaded : loaded ∈ result.violations := by
    have hmentioned : Mentioned image none loaded := mem_mentions_iff.mp (by decide +kernel)
    exact (hviolations loaded).mpr ⟨hmentioned, by decide +kernel⟩
  have hheld : result.passed ≠ true := fun hpass =>
    have ⟨hmentioned, hrestricts⟩ := (hviolations nested).mp hnested
    hpassed.mp hpass nested hmentioned hrestricts
  refine ⟨hnested, hloaded, Bool.eq_false_iff.mpr hheld, ?_⟩
  have hallowed : ∀ v ∈ mentions image none, ¬ Policy.trustedTier.Restricts v := by decide +kernel
  exact (mem_violations_iff_mentioned Policy.trustedTier image none).2.mpr fun v hv =>
    hallowed v (mem_mentions_iff.mpr hv)

end Analysis

end PluginHost
