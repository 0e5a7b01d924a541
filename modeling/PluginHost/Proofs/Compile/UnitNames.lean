import Mathlib.Data.List.Nodup
import Mathlib.Data.List.Perm.Subperm
import PluginHost.Compliance.Verify
import PluginHost.Proofs.Compile.Delivery
import PluginHost.Proofs.Disk.Siblings
import PluginHost.Proofs.Json.Numeral
/-!
The names of units.

A unit is named after its first source, with a number that no earlier unit has if the name is taken. Main
statements: units are told apart by their names, a file can be called after each of them, and so it is with
the artifacts of a compilation.
-/

namespace PluginHost

open PluginHost.Path

namespace CompileUnit

variable {base : String} {taken : List String} {n : Nat}

theorem slash_not_mem_number (n : Nat) : '/' ∉ (String.ofList (Text.ofNat n)).toList := by
  rw [String.toList_ofList]
  exact fun hmem => absurd (Json.isDigit_of_mem_ofNat hmem) (by decide)

theorem numbered_injective (base : String) : Function.Injective (numbered base) := fun _ _ heq =>
  Json.ofNat_injective (String.ofList_injective ((String.append_right_inj (base ++ "-")).mp heq))

/-- The search passes over taken names only, and the name to which it comes is free unless the fuel is used up. -/
theorem exists_firstFree_eq (base : String) (taken : List String) (fuel n : Nat) :
    ∃ k ≤ fuel, firstFree base taken fuel n = numbered base (n + k) ∧
      (∀ j < k, numbered base (n + j) ∈ taken) ∧ (k < fuel → numbered base (n + k) ∉ taken) := by
  have hnone : ∀ j < 0, numbered base (n + j) ∈ taken := fun j hj => absurd hj (Nat.not_lt_zero j)
  induction fuel generalizing n with
  | zero => exact ⟨0, Nat.le_refl 0, rfl, hnone, fun h => absurd h (Nat.not_lt_zero 0)⟩
  | succ fuel ih =>
    rw [firstFree]
    split
    · next htaken =>
      obtain ⟨k, hk, hfound, hpassed, hfree⟩ := ih (n + 1) fun j hj => absurd hj (Nat.not_lt_zero j)
      have hshift : ∀ j, n + 1 + j = n + (j + 1) := fun j => by omega
      simp only [hshift] at hfound hpassed hfree
      refine ⟨k + 1, Nat.succ_le_succ hk, hfound, ?_, fun h => hfree (Nat.lt_of_succ_lt_succ h)⟩
      rintro (_ | j) hj
      · exact htaken
      · exact hpassed j (Nat.lt_of_succ_lt_succ hj)
    · next hfree => exact ⟨0, Nat.zero_le _, rfl, hnone, fun _ => hfree⟩

/-- Different numbers make different names, so no more of them are taken than there are taken names. -/
theorem le_length_of_numbered_mem {count : Nat} (h : ∀ k < count, numbered base (n + k) ∈ taken) :
    count ≤ taken.length := by
  have hsubset : (List.range count).map (fun k => numbered base (n + k)) ⊆ taken := by
    intro name hname
    obtain ⟨k, hk, rfl⟩ := List.mem_map.mp hname
    exact h k (List.mem_range.mp hk)
  have hnodup : ((List.range count).map fun k => numbered base (n + k)).Nodup :=
    List.Nodup.map (fun k l heq => Nat.add_left_cancel (numbered_injective base heq)) List.nodup_range
  have hlength := (List.subperm_of_subset hnodup hsubset).length_le
  rwa [List.length_map, List.length_range] at hlength

theorem freeName_not_mem (base : String) (taken : List String) : freeName base taken ∉ taken := by
  rw [freeName]
  split
  · obtain ⟨k, hk, hfound, hpassed, hfree⟩ := exists_firstFree_eq base taken taken.length 2
    rw [hfound]
    intro hmem
    -- There are more numbers to choose from than there are taken names.
    have hused : k = taken.length := Nat.le_antisymm hk (Nat.le_of_not_lt fun hless => hfree hless hmem)
    have hcount : k + 1 ≤ taken.length := le_length_of_numbered_mem fun j hj =>
      (Nat.lt_succ_iff_lt_or_eq.mp hj).elim (hpassed j) fun heq => heq ▸ hmem
    omega
  · assumption

theorem isStem_firstFree (hbase : IsStem base) (taken : List String) (fuel n : Nat) :
    IsStem (firstFree base taken fuel n) := by
  obtain ⟨k, _, hfound, _⟩ := exists_firstFree_eq base taken fuel n
  rw [hfound]
  exact (hbase.append (by decide)).append (slash_not_mem_number _)

theorem isStem_freeName (hbase : IsStem base) (taken : List String) : IsStem (freeName base taken) := by
  rw [freeName]
  split
  · exact isStem_firstFree hbase taken _ _
  · exact hbase

theorem isStem_baseName (sources : List String) : IsStem (baseName sources) := by
  have hstem : IsStem ((sources.head?.bind stem?).getD "plugin") := by
    cases hfirst : sources.head?.bind stem? with
    | none => exact ⟨by decide, by decide⟩
    | some stem =>
      obtain ⟨path, _, hpath⟩ := Option.bind_eq_some_iff.mp hfirst
      exact isStem_of_stem? hpath
  rw [baseName]
  split
  · exact (hstem.append (by decide)).append (slash_not_mem_number _)
  · exact hstem

theorem nameAll_names (taken : List String) (groups : List (List String)) :
    ((nameAll taken groups).map (·.name)).Nodup ∧
      ∀ u ∈ nameAll taken groups, u.name ∉ taken ∧ IsStem u.name := by
  induction groups generalizing taken with
  | nil => exact ⟨List.nodup_nil, List.forall_mem_nil _⟩
  | cons sources rest ih =>
    obtain ⟨hnodup, hnames⟩ := ih (freeName (baseName sources) taken :: taken)
    rw [nameAll, List.map_cons, List.nodup_cons, List.forall_mem_cons]
    refine ⟨⟨fun hmem => ?_, hnodup⟩, ⟨freeName_not_mem _ _, isStem_freeName (isStem_baseName _) _⟩,
      fun u hu => ⟨fun hmem => (hnames u hu).1 (List.mem_cons_of_mem _ hmem), (hnames u hu).2⟩⟩
    obtain ⟨u, hu, heq⟩ := List.mem_map.mp hmem
    exact (hnames u hu).1 (heq ▸ List.mem_cons_self)

/-- Units are told apart by their names, and each is the stem of a file name. -/
theorem ofSources_names (mode : CompileMode) (sources : List String) :
    ((ofSources mode sources).map (·.name)).Nodup ∧ ∀ u ∈ ofSources mode sources, IsStem u.name :=
  ⟨(nameAll_names [] _).1, fun u hu => ((nameAll_names [] _).2 u hu).2⟩

end CompileUnit

namespace Artifact

theorem isExtension_module : IsExtension moduleExtension := ⟨by decide, by decide, by decide⟩

theorem isExtension_symbols : IsExtension symbolsExtension := ⟨by decide, by decide, by decide⟩

/-- The streams of the artifact have the headers that they have to have, so that it is taken as it is. -/
def WellHeaded (a : Artifact) : Prop := ofBytes a.name a.module a.symbols = .ok a

theorem wellHeaded_of_ofBytes {name : String} {module : List UInt8} {symbols : Option (List UInt8)}
    {a : Artifact} (h : ofBytes name module symbols = .ok a) : a.WellHeaded := by
  cases eq_of_ofBytes h
  exact h

end Artifact

namespace Compiler

variable {toolchain : Toolchain} {disk : Disk}

theorem wellHeaded_of_artifactOf {i : Invocation} {a : Artifact} (h : artifactOf disk i = .ok a) :
    a.WellHeaded := by
  rw [artifactOf] at h
  split at h
  · cases h
  · split at h
    · cases h
    · cases hsymbols : symbolsOf disk i with
      | error fault =>
        rw [hsymbols] at h
        cases h
      | ok symbols =>
        rw [hsymbols] at h
        exact Artifact.wellHeaded_of_ofBytes h

/-- The artifact of a unit is called after it. -/
theorem artifact?_unitResult {i : Invocation} {answer : ToolchainAnswer} {result : UnitResult} {a : Artifact}
    (hresult : unitResult disk i answer = .ok result) (ha : result.artifact? = some a) :
    a.name = i.unitName ∧ a.WellHeaded := by
  rw [unitResult] at hresult
  split at hresult
  · cases hartifact : artifactOf disk i with
    | error fault =>
      rw [hartifact] at hresult
      cases hresult
    | ok artifact =>
      rw [hartifact] at hresult
      cases hresult
      cases ha
      exact ⟨(artifactOf_eq_ok hartifact).1, wellHeaded_of_artifactOf hartifact⟩
  · cases hresult
    cases ha

/-- The artifacts of calls are called after units, in order, with units left out that have none. -/
theorem callAll_names {invocations : List Invocation} {results : List UnitResult}
    (hcalls : (callAll toolchain disk invocations).2.2 = .ok results) :
    List.Sublist ((results.filterMap UnitResult.artifact?).map (·.name)) (invocations.map (·.unitName)) ∧
      ∀ a ∈ results.filterMap UnitResult.artifact?, a.WellHeaded := by
  induction invocations generalizing disk results with
  | nil =>
    cases hcalls
    exact ⟨List.Sublist.refl _, List.forall_mem_nil _⟩
  | cons i rest ih =>
    obtain ⟨after, answer, result, others, _, hresult, hothers, rfl⟩ := callAll_cons_eq_ok hcalls
    obtain ⟨hnames, hheaded⟩ := ih hothers
    rw [List.map_cons]
    cases hartifact : result.artifact? with
    | none =>
      rw [List.filterMap_cons_none hartifact]
      exact ⟨hnames.cons _, hheaded⟩
    | some a =>
      obtain ⟨hname, ha⟩ := artifact?_unitResult hresult hartifact
      rw [List.filterMap_cons_some hartifact, List.map_cons, hname, List.forall_mem_cons]
      exact ⟨hnames.cons_cons _, ha, hheaded⟩

/-- The artifacts of a compilation are told apart by their names, and a file can be called after each. -/
theorem compile_names {c : Compiler} {sources : List String} {references : References} {options : CompileOptions}
    {artifacts : List Artifact}
    (hcompile : (c.compile toolchain disk sources references options).result = .ok artifacts) :
    (artifacts.map (·.name)).Nodup ∧ ∀ a ∈ artifacts, IsStem a.name ∧ a.WellHeaded := by
  obtain ⟨made, directory, paths, results, _, hresults, hcollect⟩ := compile_eq_ok hcompile
  obtain ⟨_, rfl⟩ := UnitResult.collect_eq_ok hcollect
  obtain ⟨hnames, hheaded⟩ := callAll_names hresults
  have hunits : ((CompileUnit.ofSources options.mode sources).map
      (invocation directory paths options.emitDebugSymbols)).map (·.unitName) =
      (CompileUnit.ofSources options.mode sources).map (·.name) := by
    rw [List.map_map]
    rfl
  rw [hunits] at hnames
  obtain ⟨hnodup, hstems⟩ := CompileUnit.ofSources_names options.mode sources
  refine ⟨hnames.nodup hnodup, fun a ha => ⟨?_, hheaded a ha⟩⟩
  obtain ⟨u, hu, heq⟩ := List.mem_map.mp (hnames.subset (List.mem_map_of_mem ha))
  exact heq ▸ hstems u hu

end Compiler

end PluginHost
