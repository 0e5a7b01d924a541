import Mathlib.Data.List.Nodup
import Mathlib.Data.List.Perm.Subperm
import PluginHost.Orchestration.Run
/-!
What names come to in a registry, and chains of base types.

A load comes to a module or to a fault, whatever has been loaded before it, and a module only adds to the
index what is not in it yet. So a name comes to its first definition in the first module with one, and stays
with that when modules are put after the others.

A chain starts with the base type that a definition names itself; from there on, names are looked up in the
registry. The search that goes along a chain gives up at a name that it has met before. Main statement: it
finds what it looks for exactly if the chain leads there, whatever cycles and unknown names there are.
-/

namespace PluginHost

/-- The module that an artifact is loaded into. There is none if the artifact is too long, if its image
    cannot be read or if there is no code for it. -/
def LoadedModule.ofArtifact? {γ : Type} (loader : Loader γ) (identity : String) (isDependency : Bool)
    (artifact : Artifact) : Option (LoadedModule γ) :=
  if artifact.module.length ≤ maxModuleBytes then do
    let image ← artifact.image.toOption
    let code ← (loader artifact).toOption
    return ⟨identity, image, isDependency, code⟩
  else none

theorem LoadedModule.ofArtifact?_eq_some_iff {γ : Type} {loader : Loader γ} {identity : String}
    {isDependency : Bool} {artifact : Artifact} {m : LoadedModule γ} :
    ofArtifact? loader identity isDependency artifact = some m ↔
      artifact.module.length ≤ maxModuleBytes ∧ ∃ image code, artifact.image = .ok image ∧
        loader artifact = .ok code ∧ m = ⟨identity, image, isDependency, code⟩ := by
  rw [ofArtifact?]
  by_cases hlength : artifact.module.length ≤ maxModuleBytes
  · cases artifact.image <;> cases loader artifact <;> simp [hlength, Except.toOption, eq_comm]
  · simp [hlength]

namespace Registry

variable {γ : Type}

theorem load_eq_ok_iff {r s : Registry γ} {loader : Loader γ} {identity : String} {isDependency : Bool}
    {artifact : Artifact} :
    r.load loader identity isDependency artifact = .ok s ↔
      ∃ m, LoadedModule.ofArtifact? loader identity isDependency artifact = some m ∧ s = r.add m := by
  simp only [LoadedModule.ofArtifact?_eq_some_iff]
  by_cases hlength : artifact.module.length ≤ maxModuleBytes
  · rw [load, if_neg (Nat.not_lt.mpr hlength)]
    cases artifact.image <;> cases loader artifact <;>
      simp [bind, Except.bind, pure, Except.pure, hlength, eq_comm]
  · rw [load, if_pos (Nat.lt_of_not_le hlength)]
    simp [bind, Except.bind, throw, throwThe, MonadExceptOf.throw, hlength]

/-- The registry with modules put after the others, in order. -/
def addAll (r : Registry γ) (modules : List (LoadedModule γ)) : Registry γ := modules.foldl add r

@[simp]
theorem modules_addAll (r : Registry γ) (modules : List (LoadedModule γ)) :
    (r.addAll modules).modules = r.modules ++ modules := by
  induction modules generalizing r with
  | nil => exact (List.append_nil _).symm
  | cons m rest ih =>
    rw [addAll, List.foldl_cons, ← addAll, ih, add, List.append_assoc, List.singleton_append]

/-- A definition is the first one of its name: none stands before it in its module, and none in the modules
    before that. -/
def FirstDefinition (modules : List (LoadedModule γ)) (name : String) (t : TypeDef) : Prop :=
  ∃ before m after first last, modules = before ++ m :: after ∧ m.image.types = first ++ t :: last ∧
    t.fullName = name ∧ (∀ u ∈ first, u.fullName ≠ name) ∧
    ∀ n ∈ before, ∀ u ∈ n.image.types, u.fullName ≠ name

theorem resolve?_eq_some_iff {r : Registry γ} {name : String} {t : TypeDef} :
    r.resolve? name = some t ↔ FirstDefinition r.modules name t := by
  rw [resolve?_eq, List.findSome?_eq_some_iff]
  simp only [Image.findType?, List.find?_eq_some_iff_append, List.find?_eq_none, decide_eq_true_eq,
    Bool.not_eq_true', decide_eq_false_iff_not]
  constructor
  · rintro ⟨before, m, after, hmodules, ⟨hname, first, last, htypes, hfirst⟩, hbefore⟩
    exact ⟨before, m, after, first, last, hmodules, htypes, hname, hfirst, hbefore⟩
  · rintro ⟨before, m, after, first, last, hmodules, htypes, hname, hfirst, hbefore⟩
    exact ⟨before, m, after, hmodules, ⟨hname, first, last, htypes, hfirst⟩, hbefore⟩

theorem resolve?_isSome_iff {r : Registry γ} {name : String} :
    (r.resolve? name).isSome ↔ ∃ m ∈ r.modules, ∃ t ∈ m.image.types, t.fullName = name := by
  simp [resolve?_eq, List.findSome?_isSome_iff, Image.findType?]

/-- What a name comes to is not changed by modules that are put after the others. -/
theorem resolve?_addAll {r : Registry γ} {name : String} {t : TypeDef} (h : r.resolve? name = some t)
    (modules : List (LoadedModule γ)) : (r.addAll modules).resolve? name = some t := by
  rw [resolve?_eq] at h ⊢
  rw [modules_addAll, List.findSome?_append, h, Option.some_or]

/-! Chains of base types. -/

variable {r : Registry γ} {base name : String} {t u : TypeDef} {n k : Nat}

/-- The base chain of a definition reaches a name. -/
inductive Descends (r : Registry γ) (base : String) : TypeDef → Prop
  | direct {t : TypeDef} {parent : TypeRef} (hparent : t.baseType = some parent)
      (hbase : parent.fullName = base) : Descends r base t
  | through {t u : TypeDef} {parent : TypeRef} (hparent : t.baseType = some parent)
      (hresolve : r.resolve? parent.fullName = some u) (hdescends : Descends r base u) : Descends r base t

/-- The base chain of a definition reaches a name for the first time after some lookups. -/
inductive DescendsAfter (r : Registry γ) (base : String) : Nat → TypeDef → Prop
  | direct {t : TypeDef} {parent : TypeRef} (hparent : t.baseType = some parent)
      (hbase : parent.fullName = base) : DescendsAfter r base 0 t
  | through {n : Nat} {t u : TypeDef} {parent : TypeRef} (hparent : t.baseType = some parent)
      (hother : parent.fullName ≠ base) (hresolve : r.resolve? parent.fullName = some u)
      (hdescends : DescendsAfter r base n u) : DescendsAfter r base (n + 1) t

theorem Descends.exists_after (h : r.Descends base t) : ∃ n, r.DescendsAfter base n t := by
  induction h with
  | direct hparent hbase => exact ⟨0, .direct hparent hbase⟩
  | @through t u parent hparent hresolve _ ih =>
    obtain ⟨n, hn⟩ := ih
    by_cases hbase : parent.fullName = base
    · exact ⟨0, .direct hparent hbase⟩
    · exact ⟨n + 1, .through hparent hbase hresolve hn⟩

namespace DescendsAfter

theorem unique (h : r.DescendsAfter base n t) (h' : r.DescendsAfter base k t) : n = k := by
  induction h generalizing k with
  | direct hparent hbase =>
    cases h' with
    | direct => rfl
    | through hparent' hother =>
      rw [hparent, Option.some.injEq] at hparent'
      exact absurd hbase (hparent' ▸ hother)
  | through hparent hother hresolve _ ih =>
    cases h' with
    | direct hparent' hbase =>
      rw [hparent, Option.some.injEq] at hparent'
      exact absurd hbase (hparent' ▸ hother)
    | through hparent' _ hresolve' h' =>
      rw [hparent, Option.some.injEq] at hparent'
      rw [hparent', hresolve', Option.some.injEq] at hresolve
      exact congrArg (· + 1) (ih (hresolve ▸ h'))

end DescendsAfter

/-- All definitions in the loaded modules. -/
def definitions (r : Registry γ) : List TypeDef := r.modules.flatMap fun m => m.image.types

theorem fullName_of_resolve? (h : r.resolve? name = some t) : t.fullName = name := by
  obtain ⟨_, _, _, _, _, _, _, hname, _⟩ := resolve?_eq_some_iff.mp h
  exact hname

theorem mem_definitions_of_resolve? (h : r.resolve? name = some t) : t ∈ r.definitions := by
  obtain ⟨before, m, after, first, last, hmodules, htypes, _⟩ := resolve?_eq_some_iff.mp h
  refine List.mem_flatMap.mpr ⟨m, ?_, ?_⟩
  · exact hmodules ▸ List.mem_append_right _ List.mem_cons_self
  · exact htypes ▸ List.mem_append_right _ List.mem_cons_self

/-- No definition comes twice on the way to a name that is reached for the first time, because the number
    of lookups that are still to be done gets smaller. -/
theorem DescendsAfter.exists_way (h : r.DescendsAfter base n t) (ht : t ∈ r.definitions) :
    ∃ way : List TypeDef, way.length = n + 1 ∧ way.Nodup ∧ way ⊆ r.definitions ∧
      ∀ u ∈ way, ∃ k, k ≤ n ∧ r.DescendsAfter base k u := by
  induction h with
  | @direct t parent hparent hbase =>
    exact ⟨[t], rfl, List.nodup_singleton t, List.cons_subset.mpr ⟨ht, List.nil_subset _⟩,
      List.forall_mem_singleton.mpr ⟨0, Nat.le_refl 0, .direct hparent hbase⟩⟩
  | @through n t u parent hparent hother hresolve hdescends ih =>
    obtain ⟨way, hlength, hnodup, hsubset, hway⟩ := ih (mem_definitions_of_resolve? hresolve)
    have hself : r.DescendsAfter base (n + 1) t := .through hparent hother hresolve hdescends
    have hnew : t ∉ way := by
      intro hmem
      obtain ⟨k, hk, hagain⟩ := hway t hmem
      exact absurd (hself.unique hagain) (by omega)
    refine ⟨t :: way, congrArg (· + 1) hlength, List.nodup_cons.mpr ⟨hnew, hnodup⟩,
      List.cons_subset.mpr ⟨ht, hsubset⟩, List.forall_mem_cons.mpr ⟨⟨n + 1, Nat.le_refl _, hself⟩, ?_⟩⟩
    intro v hv
    obtain ⟨k, hk, hlater⟩ := hway v hv
    exact ⟨k, Nat.le_succ_of_le hk, hlater⟩

theorem DescendsAfter.lt_typeCount (h : r.DescendsAfter base n t) (ht : t ∈ r.definitions) :
    n < r.typeCount := by
  obtain ⟨way, hlength, hnodup, hsubset, _⟩ := h.exists_way ht
  have hle : way.length ≤ r.typeCount := (hnodup.subperm hsubset).length_le
  omega

theorem descends_of_reaches {fuel : Nat} {seen : List String} (h : r.reaches base fuel seen name = true) :
    ∃ t, r.resolve? name = some t ∧ r.Descends base t := by
  induction fuel generalizing seen name with
  | zero => cases h
  | succ fuel ih =>
    rw [reaches] at h
    cases hresolve : r.resolve? name with
    | none => simp [hresolve] at h
    | some t =>
      cases hparent : t.baseType with
      | none => simp [hresolve, hparent] at h
      | some parent =>
        simp only [hresolve, hparent, Bool.if_false_left, Bool.and_eq_true, Bool.or_eq_true,
          decide_eq_true_eq] at h
        obtain hbase | hrest := h.2
        · exact ⟨t, rfl, .direct hparent hbase⟩
        · obtain ⟨u, hu, hdescends⟩ := ih hrest
          exact ⟨t, rfl, .through hparent hu hdescends⟩

/-- The search does not meet a name again as long as all names that it has met are further away from the
    one it looks for. -/
theorem reaches_of_descendsAfter {fuel : Nat} {seen : List String} (h : r.DescendsAfter base n t)
    (hresolve : r.resolve? name = some t) (hfuel : n < fuel)
    (hseen : ∀ met ∈ seen, ∀ u, r.resolve? met = some u → ∃ k, n < k ∧ r.DescendsAfter base k u) :
    r.reaches base fuel seen name = true := by
  induction h generalizing fuel seen name with
  | @direct t parent hparent hbase =>
    obtain ⟨fuel, rfl⟩ := Nat.exists_eq_succ_of_ne_zero (Nat.ne_of_gt hfuel)
    have hself : r.DescendsAfter base 0 t := .direct hparent hbase
    have hnew : t.fullName ∉ seen := by
      intro hmem
      obtain ⟨k, hk, hagain⟩ := hseen _ hmem t (fullName_of_resolve? hresolve ▸ hresolve)
      exact absurd (hself.unique hagain) (by omega)
    simp [reaches, hresolve, hnew, hparent, hbase]
  | @through n t u parent hparent hother hnext hdescends ih =>
    obtain ⟨fuel, rfl⟩ := Nat.exists_eq_succ_of_ne_zero (Nat.ne_zero_of_lt hfuel)
    have hself : r.DescendsAfter base (n + 1) t := .through hparent hother hnext hdescends
    have hown : r.resolve? t.fullName = some t := fullName_of_resolve? hresolve ▸ hresolve
    have hnew : t.fullName ∉ seen := by
      intro hmem
      obtain ⟨k, hk, hagain⟩ := hseen _ hmem t hown
      exact absurd (hself.unique hagain) (by omega)
    have hrest : r.reaches base fuel (t.fullName :: seen) parent.fullName = true := by
      refine ih hnext (by omega) (List.forall_mem_cons.mpr ⟨?_, ?_⟩)
      · intro v hv
        rw [hown, Option.some.injEq] at hv
        exact ⟨n + 1, Nat.lt_succ_self n, hv ▸ hself⟩
      · intro met hmet v hv
        obtain ⟨k, hk, hfar⟩ := hseen met hmet v hv
        exact ⟨k, by omega, hfar⟩
    simp [reaches, hresolve, hnew, hparent, hrest]

theorem derivesFrom_iff :
    r.derivesFrom name base = true ↔ ∃ t, r.resolve? name = some t ∧ r.Descends base t := by
  constructor
  · exact descends_of_reaches
  · rintro ⟨t, hresolve, hdescends⟩
    obtain ⟨n, hafter⟩ := hdescends.exists_after
    have hfuel := hafter.lt_typeCount (mem_definitions_of_resolve? hresolve)
    exact reaches_of_descendsAfter hafter hresolve (Nat.lt_succ_of_lt hfuel) (List.forall_mem_nil _)

/-- The chain of a definition is the search from its own base type. -/
theorem descends_iff :
    r.Descends base t ↔
      (t.baseType.any fun parent => parent.fullName = base || r.derivesFrom parent.fullName base) = true := by
  simp only [Option.any_eq_true, Bool.or_eq_true, decide_eq_true_eq, derivesFrom_iff]
  constructor
  · rintro (⟨hparent, hbase⟩ | ⟨hparent, hresolve, hdescends⟩)
    · exact ⟨_, hparent, .inl hbase⟩
    · exact ⟨_, hparent, .inr ⟨_, hresolve, hdescends⟩⟩
  · rintro ⟨parent, hparent, hbase | ⟨u, hresolve, hdescends⟩⟩
    · exact .direct hparent hbase
    · exact .through hparent hresolve hdescends

instance : Decidable (r.Descends base t) := decidable_of_iff _ descends_iff.symm

end Registry

end PluginHost
