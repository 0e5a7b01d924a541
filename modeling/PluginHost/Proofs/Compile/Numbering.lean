import PluginHost.Proofs.Compile.Tasks
import PluginHost.Proofs.Compile.UnitNames
import PluginHost.Proofs.Turns
/-!
The numbers in the names of units.

A unit is named after its source. If an earlier unit has that name, numbers are tried one after another. A source may
well have a name that looks like a numbered one; the search passes over it if it is taken, and later units pass over
what was found. Main statement: `compile_perSource_names`.
-/

namespace PluginHost

open PluginHost.Path

namespace CompileUnit

variable {base name : String} {taken : List String} {n : Nat}

/-! The name that comes next. -/

/-- The name that a unit is to have when others are taken: the base, or else the base with the least number from 2 on
    that makes it a name that is not taken. -/
inductive NextName (base : String) (taken : List String) : String → Prop
  | base (hfree : base ∉ taken) : NextName base taken base
  | numbered {n : Nat} (htaken : base ∈ taken) (hn : 2 ≤ n) (hfree : numbered base n ∉ taken)
    (hleast : ∀ m, 2 ≤ m → m < n → numbered base m ∈ taken) : NextName base taken (numbered base n)

/-- There is only one such name. -/
theorem NextName.unique {other : String} (h : NextName base taken name) (hother : NextName base taken other) :
    name = other := by
  cases h with
  | base hfree =>
    cases hother with
    | base => rfl
    | numbered htaken => exact absurd htaken hfree
  | @numbered n htaken hn hfree hleast =>
    cases hother with
    | base hother => exact absurd htaken hother
    | @numbered m _ hm hfree' hleast' =>
      rcases Nat.lt_trichotomy n m with hless | rfl | hless
      · exact absurd (hleast' n hn hless) hfree
      · rfl
      · exact absurd (hleast m hm hless) hfree'

/-- Only membership in the taken names counts. -/
theorem NextName.congr {taken' : List String} (hsame : ∀ other, other ∈ taken ↔ other ∈ taken')
    (h : NextName base taken name) : NextName base taken' name := by
  cases h with
  | base hfree => exact .base ((hsame base).not.mp hfree)
  | numbered htaken hn hfree hleast =>
    exact .numbered ((hsame base).mp htaken) hn ((hsame _).not.mp hfree) fun m hm hless =>
      (hsame _).mp (hleast m hm hless)

theorem nextName_freeName (base : String) (taken : List String) : NextName base taken (freeName base taken) := by
  have hnew := freeName_not_mem base taken
  rw [freeName] at hnew ⊢
  split at hnew
  · next htaken =>
    obtain ⟨k, _, hfound, hpassed, _⟩ := exists_firstFree_eq base taken taken.length 2
    rw [hfound] at hnew
    rw [if_pos htaken, hfound]
    refine .numbered htaken (Nat.le_add_right 2 k) hnew fun m hm hless => ?_
    have hmem := hpassed (m - 2) (by omega)
    rwa [Nat.add_sub_cancel' hm] at hmem
  · next hfree =>
    rw [if_neg hfree]
    exact .base hfree

theorem numbered_ne_base (base : String) (n : Nat) : numbered base n ≠ base := by
  intro heq
  have hlength := congrArg (fun s => s.toList.length) heq
  simp [numbered] at hlength

/-! The search for it. -/

/-- Where a search stands: the number that was tried last, and the name that is tried now. -/
structure NameSearch where
  number : Nat
  name : String

namespace NameSearch

/-- A search that has not begun. The base counts as number 1. -/
def start (base : String) : NameSearch := ⟨1, base⟩

/-- In one turn, a search comes to a name that is not taken, or to the next number. -/
def turn (base : String) (taken : List String) (s : NameSearch) : String ⊕ NameSearch :=
  if s.name ∈ taken then .inr ⟨s.number + 1, numbered base (s.number + 1)⟩ else .inl s.name

/-- From the first number on, the search comes to the least one that makes a free name. -/
theorem endsAfter_numbered (hn : 2 ≤ n) (hfree : numbered base n ∉ taken)
    (hleast : ∀ m, 2 ≤ m → m < n → numbered base m ∈ taken) :
    ∃ turns ≤ n - 2 + 1, EndsAfter (turn base taken) turns ⟨2, numbered base 2⟩ (numbered base n) := by
  refine endsAfter_of_turns
    (fun s : NameSearch => ∃ m, 2 ≤ m ∧ m ≤ n ∧ s = ⟨m, numbered base m⟩)
    (fun s => n - s.number) ?_ ⟨2, numbered base 2⟩ ⟨2, Nat.le_refl 2, hn, rfl⟩
  rintro _ ⟨m, hm, hle, rfl⟩
  rcases Nat.lt_or_eq_of_le hle with hless | rfl
  · have hnearer : n - (m + 1) < n - m := Nat.sub_lt_sub_left hless (Nat.lt_succ_self m)
    exact .inr ⟨_, if_pos (hleast m hm hless), ⟨m + 1, Nat.le_succ_of_le hm, hless, rfl⟩, hnearer⟩
  · exact .inl (if_neg hfree)

/-- The base and the numbers before the least one are taken, each with a name of its own. -/
theorem number_le (htaken : base ∈ taken) (hleast : ∀ m, 2 ≤ m → m < n → numbered base m ∈ taken) :
    n ≤ taken.length + 1 := by
  have hcount : n - 2 ≤ (taken.erase base).length := le_length_of_numbered_mem fun k hk =>
    (List.mem_erase_of_ne (numbered_ne_base base _)).mpr (hleast (2 + k) (Nat.le_add_right 2 k) (by omega))
  have hpositive := List.length_pos_of_mem htaken
  rw [List.length_erase_of_mem htaken] at hcount
  omega

/-- The search comes to the name that is next, after at most one turn more than there are taken names. -/
theorem endsAfter_nextName (h : NextName base taken name) :
    ∃ turns ≤ taken.length + 1, EndsAfter (turn base taken) turns (start base) name := by
  cases h with
  | base hfree => exact ⟨1, Nat.le_add_left 1 _, .answer (if_neg hfree)⟩
  | @numbered n htaken hn hfree hleast =>
    obtain ⟨turns, hturns, hends⟩ := endsAfter_numbered hn hfree hleast
    have hbound := number_le htaken hleast
    exact ⟨turns + 1, by omega, .goOn (if_pos htaken) hends⟩

end NameSearch

/-! The units of a compilation. -/

/-- Each unit gets the name that comes next after those of the units before it. -/
theorem nextName_of_getElem?_nameAll {groups : List (List String)} {k : Nat} {u : CompileUnit}
    (hu : (nameAll taken groups)[k]? = some u) :
    NextName (baseName u.sources) (taken ++ ((nameAll taken groups).map (·.name)).take k) u.name := by
  induction groups generalizing taken k with
  | nil => cases hu
  | cons sources rest ih =>
    rw [nameAll] at hu ⊢
    cases k with
    | zero =>
      cases hu
      rw [List.take_zero, List.append_nil]
      exact nextName_freeName _ _
    | succ k =>
      refine (ih hu).congr fun other => ?_
      simp only [List.map_cons, List.take_succ_cons, List.mem_append, List.mem_cons]
      exact or_assoc.trans or_left_comm

/-- When sources are compiled one by one, each unit has the source at its own place and no other one. -/
theorem source_of_getElem?_perSource {sources : List String} {k : Nat} {u : CompileUnit}
    (hu : (ofSources .perSource sources)[k]? = some u) :
    ∃ source, sources[k]? = some source ∧ u.sources = [source] := by
  have hgroups : (sources.map fun s => [s])[k]? = some u.sources := by
    rw [← CompileMode.groups, ← sources_ofSources, List.getElem?_map, hu]
    rfl
  rw [List.getElem?_map] at hgroups
  obtain ⟨source, hsource, hgroup⟩ := Option.map_eq_some_iff.mp hgroups
  exact ⟨source, hsource, hgroup.symm⟩

end CompileUnit

namespace Compiler

variable {directory : String} {paths : List String} {emitSymbols : Bool} {units : List CompileUnit}

/-! The calls of a compilation. -/

/-- Calls are made in order, and may come to an end before the last one. -/
theorem callAll_invocations_prefix (toolchain : Toolchain) (disk : Disk) (invocations : List Invocation) :
    (callAll toolchain disk invocations).2.1.map (·.invocation) <+: invocations := by
  induction invocations generalizing disk with
  | nil => exact List.prefix_refl []
  | cons i rest ih =>
    rw [callAll_cons toolchain ⟨i, disk⟩]
    cases (⟨i, disk⟩ : ToolchainCall).unitResult toolchain with
    | error fault => exact ⟨rest, rfl⟩
    | ok result => exact (List.prefix_cons_inj i).mpr (ih _)

theorem compile_invocations_prefix (c : Compiler) (toolchain : Toolchain) (disk : Disk) (sources : List String)
    (references : References) (options : CompileOptions) :
    ∃ directory paths, (c.compile toolchain disk sources references options).calls.map (·.invocation) <+:
      (CompileUnit.ofSources options.mode sources).map (invocation directory paths options.emitDebugSymbols) := by
  rcases c.compile_cases toolchain disk sources references options with
    ⟨hnone, _⟩ | ⟨made, directory, paths, hcalls, _⟩
  · rw [hnone]
    exact ⟨"", [], List.nil_prefix⟩
  · rw [hcalls]
    exact ⟨directory, paths, callAll_invocations_prefix toolchain made _⟩

/-- The extensions of what is written for a unit. -/
def outputExtensions (emitSymbols : Bool) : List String :=
  if emitSymbols then [moduleExtension, Artifact.symbolsExtension] else [moduleExtension]

theorem isExtension_of_mem {ext : String} (hext : ext ∈ outputExtensions emitSymbols) : IsExtension ext := by
  cases emitSymbols with
  | false => exact List.mem_singleton.mp hext ▸ Artifact.isExtension_module
  | true =>
    rcases List.mem_pair.mp hext with rfl | rfl
    · exact Artifact.isExtension_module
    · exact Artifact.isExtension_symbols

theorem outputs_invocation (u : CompileUnit) :
    (invocation directory paths emitSymbols u).outputs =
      (outputExtensions emitSymbols).map fun ext => join directory (withDot u.name ext) := by
  have hdot : ∀ ext, u.name ++ ("." ++ ext) = withDot u.name ext := fun ext => String.append_assoc.symm
  cases emitSymbols with
  | false => exact congrArg (fun file => [join directory file]) (hdot moduleExtension)
  | true =>
    exact congrArg₂ (fun file file' => [join directory file, join directory file']) (hdot moduleExtension)
      (hdot Artifact.symbolsExtension)

/-- Files are told apart by the names of their units, and two files of one unit by their extensions. -/
theorem nodup_outputs (hnames : (units.map (·.name)).Nodup) (hstems : ∀ u ∈ units, IsStem u.name) :
    ((units.map (invocation directory paths emitSymbols)).flatMap Invocation.outputs).Nodup := by
  have hfiles : (units.map (invocation directory paths emitSymbols)).flatMap Invocation.outputs =
      ((units.map (·.name)).product (outputExtensions emitSymbols)).map
        fun file => join directory (withDot file.1 file.2) := by
    simp [List.product, List.flatMap_map, List.map_flatMap, outputs_invocation, Function.comp_def]
  have hextensions : (outputExtensions emitSymbols).Nodup := by cases emitSymbols <;> decide
  rw [hfiles]
  refine List.Nodup.map_on ?_ (hnames.product hextensions)
  rintro ⟨stem, ext⟩ hfile ⟨stem', ext'⟩ hfile' heq
  obtain ⟨hstem, hext⟩ := List.pair_mem_product.mp hfile
  obtain ⟨hstem', hext'⟩ := List.pair_mem_product.mp hfile'
  obtain ⟨u, hu, rfl⟩ := List.mem_map.mp hstem
  obtain ⟨u', hu', rfl⟩ := List.mem_map.mp hstem'
  have hwritten := congrArg fileName? heq
  rw [fileName?_join ((hstems u hu).isName_withDot (isExtension_of_mem hext)),
    fileName?_join ((hstems u' hu').isName_withDot (isExtension_of_mem hext'))] at hwritten
  obtain ⟨hsame, rfl⟩ := (hstems u hu).withDot_inj (isExtension_of_mem hext) (hstems u' hu')
    (isExtension_of_mem hext') (Option.some.inj hwritten)
  rw [hsame]

/-- A call is made for the source at its own place, under the name that comes next after those of the calls before. -/
theorem named_of_prefix {sources : List String} {invocations : List Invocation} {i : Invocation} {k : Nat}
    (hbegins : invocations <+: (CompileUnit.ofSources .perSource sources).map (invocation directory paths emitSymbols))
    (hi : invocations[k]? = some i) :
    ∃ source, sources[k]? = some source ∧ i.sources = [source] ∧
      CompileUnit.NextName ((stem? source).getD "plugin") ((invocations.map (·.unitName)).take k) i.unitName := by
  obtain ⟨others, hothers⟩ := hbegins
  obtain ⟨hk, -⟩ := List.getElem?_eq_some_iff.mp hi
  have hunit : ((CompileUnit.ofSources .perSource sources).map (invocation directory paths emitSymbols))[k]? =
      some i := by
    rw [← hothers, List.getElem?_append_left hk, hi]
  rw [List.getElem?_map] at hunit
  obtain ⟨u, hu, rfl⟩ := Option.map_eq_some_iff.mp hunit
  obtain ⟨source, hsource, hgroup⟩ := CompileUnit.source_of_getElem?_perSource hu
  have hbefore : (invocations.map (·.unitName)).take k =
      ((CompileUnit.ofSources .perSource sources).map (·.name)).take k := by
    have hnames := congrArg (List.map Invocation.unitName) hothers
    rw [List.map_append, List.map_map] at hnames
    rw [← List.take_append_of_le_length (by rw [List.length_map]; exact hk.le), hnames]
    rfl
  have hnext := CompileUnit.nextName_of_getElem?_nameAll hu
  rw [List.nil_append, hgroup] at hnext
  exact ⟨source, hsource, hgroup, hbefore ▸ hnext⟩

/-- When sources are compiled one by one, no two calls of the toolchain have the same name, and no file is to be
    written twice, neither a module nor a symbol stream. Each call is made for the next source, and is named after
    its stem, or `plugin` if it has none; if an earlier call has that name, with the least number from 2 on with which
    none has it. Whatever names are taken, the search comes to the one name that is to be given, after at most one
    turn more than there are taken names. -/
theorem compile_perSource_names (c : Compiler) (toolchain : Toolchain) (disk : Disk) (sources : List String)
    (references : References) (emitSymbols : Bool) :
    let calls := (c.compile toolchain disk sources references ⟨.perSource, emitSymbols⟩).calls
    let names := calls.map (·.invocation.unitName)
    names.Nodup ∧ (calls.flatMap (·.invocation.outputs)).Nodup ∧
      (∀ k call, calls[k]? = some call → ∃ source, sources[k]? = some source ∧ call.invocation.sources = [source] ∧
        CompileUnit.NextName ((stem? source).getD "plugin") (names.take k) call.invocation.unitName) ∧
      ∀ base taken, ∃ name, (∀ other, CompileUnit.NextName base taken other ↔ other = name) ∧
        ∃ turns ≤ taken.length + 1,
          EndsAfter (CompileUnit.NameSearch.turn base taken) turns (.start base) name := by
  intro calls names
  obtain ⟨directory, paths, hcalls⟩ : ∃ directory paths, calls.map (·.invocation) <+: _ :=
    c.compile_invocations_prefix toolchain disk sources references ⟨.perSource, emitSymbols⟩
  obtain ⟨hnodup, hstems⟩ := CompileUnit.ofSources_names .perSource sources
  have hnames : names = (calls.map (·.invocation)).map (·.unitName) := List.map_map.symm
  refine ⟨?_, ?_, fun k call hcall => ?_, fun base taken => ?_⟩
  · have hsame : ((CompileUnit.ofSources .perSource sources).map (invocation directory paths emitSymbols)).map
        (·.unitName) = (CompileUnit.ofSources .perSource sources).map (·.name) := List.map_map
    rw [hnames]
    exact (hcalls.map _).sublist.nodup (hsame ▸ hnodup)
  · have houtputs : (((CompileUnit.ofSources .perSource sources).map
        (invocation directory paths emitSymbols)).flatMap Invocation.outputs).Nodup := nodup_outputs hnodup hstems
    obtain ⟨others, hothers⟩ := hcalls
    rw [← hothers, List.flatMap_append, List.flatMap_map] at houtputs
    exact houtputs.of_append_left
  · rw [hnames]
    exact named_of_prefix hcalls (by rw [List.getElem?_map, hcall]; rfl)
  · have hnext := CompileUnit.nextName_freeName base taken
    exact ⟨_, fun other => ⟨fun h => h.unique hnext, fun h => h ▸ hnext⟩,
      CompileUnit.NameSearch.endsAfter_nextName hnext⟩

/-- The second source has the stem that the third one would get, so the third one gets the next number. -/
theorem compile_names_numbered_stem :
    let disk : Disk := ⟨[("tmp", .directory [])], [], 0⟩
    let toolchain : Toolchain := fun disk _ => (disk, .ok ⟨false, [.ofMessage "broken"]⟩)
    let calls := ((ofReuse false).compile toolchain disk ["a.cs", "a-2.cs", "b/a.cs"] ⟨[], []⟩ ⟨.perSource, true⟩).calls
    calls.map (·.invocation.unitName) = ["a", "a-2", "a-3"] ∧
      CompileUnit.NextName "a" ["a", "a-2"] "a-3" ∧ (calls.flatMap (·.invocation.outputs)).Nodup := by
  intro disk toolchain calls
  obtain ⟨_, houtputs, hnamed, _⟩ :=
    (ofReuse false).compile_perSource_names toolchain disk ["a.cs", "a-2.cs", "b/a.cs"] ⟨[], []⟩ true
  have hnames : calls.map (·.invocation.unitName) = ["a", "a-2", "a-3"] := by decide +kernel
  have hthird : ∃ call, calls[2]? = some call ∧ call.invocation.unitName = "a-3" := by
    have hmapped : (calls.map (·.invocation.unitName))[2]? = some "a-3" := by rw [hnames]; rfl
    rw [List.getElem?_map] at hmapped
    exact Option.map_eq_some_iff.mp hmapped
  obtain ⟨call, hcall, hname⟩ := hthird
  obtain ⟨source, hsource, _, hnext⟩ := hnamed 2 call hcall
  cases hsource
  rw [hname] at hnext
  have hstem : (stem? "b/a.cs").getD "plugin" = "a" := by decide +kernel
  have hbefore : (calls.map (·.invocation.unitName)).take 2 = ["a", "a-2"] := by rw [hnames]; rfl
  exact ⟨hnames, hbefore ▸ hstem ▸ hnext, houtputs⟩

end Compiler

end PluginHost
