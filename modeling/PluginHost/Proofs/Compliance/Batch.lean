import PluginHost.Proofs.Compile.Steadiness
import PluginHost.Proofs.Compliance.FailClosed
/-!
Plugins that are verified one after another.

A compiler carries what it has staged from one plugin to the next. Main statement: with a toolchain that is
reproducible, every plugin is reported on as if it were verified alone.
-/

namespace PluginHost

open PluginHost.Path Disk

namespace Artifact

variable {d d' : Disk} {first last : Nat} {path : String}

/-- Symbols next to a module are in no temporary directory that the module is not in. -/
theorem unmentioned_symbolsPath (h : Unmentioned (Between first last) path) :
    Unmentioned (Between first last) (symbolsPath path) := by
  unfold symbolsPath withExtension
  cases hstem : stem? path with
  | none => exact h
  | some stem =>
    have hisName := (isStem_of_stem? hstem).isName_withDot isExtension_symbols
    have hkept : ∀ s ∈ (trimEnd (segments path)).dropLast, s ∈ segments path := fun s hs =>
      mem_trimEnd (List.dropLast_subset _ hs)
    have hsegments : segments (ofSegments ((trimEnd (segments path)).dropLast ++
        [(stem ++ "." ++ symbolsExtension).toList])) =
        (trimEnd (segments path)).dropLast ++ [(stem ++ "." ++ symbolsExtension).toList] := by
      refine segments_ofSegments (by simp) fun s hs => ?_
      rcases List.mem_append.mp hs with hs | hs
      · exact not_mem_of_mem_segments (hkept s hs)
      · rw [List.mem_singleton.mp hs]
        exact hisName.no_slash
    intro s hs
    rw [hsegments, List.mem_append, List.mem_singleton] at hs
    rcases hs with hs | rfl
    · exact h s (hkept s hs)
    · -- There is a dot in the name of the symbols.
      rintro ⟨st, hstart, n, _, _, heq⟩
      rw [String.ofList_toList] at heq
      refine dot_not_mem_temporaryName hstart n (heq ▸ ?_)
      rw [← withDot, toList_withDot]
      exact List.mem_append_right _ List.mem_cons_self

theorem load_congr (hmodule : d'.read path = d.read path)
    (hsymbols : d'.read (symbolsPath path) = d.read (symbolsPath path)) : load d' path = load d path := by
  unfold load readBytes
  rw [isFile_eq_isOk_read, isFile_eq_isOk_read, hmodule, hsymbols]

end Artifact

/-- The paths of what is handed in. -/
def Submission.paths : Submission → List String
  | .source _ files => files
  | .binary _ path => [path]

namespace Verifier

variable {v : Verifier} {start d d' : Disk} {c c' : Compiler} {bound : Nat} {paths : List String}
  {plugin : Submission} {plugins : List Submission}

/-- What a verifier needs to treat plugins alike. -/
structure Undisturbed (v : Verifier) (start : Disk) (bound : Nat) (paths : List String) : Prop where
  toolchain : Reproducible v.toolchain
  temporaries : NewTemporaries start bound (paths ++ v.references.paths)

theorem Undisturbed.load (h : v.Undisturbed start bound paths) (hsteady : Steady start v.references c d)
    (hroom : d.temporaries ≤ bound) {path : String} (hpath : path ∈ paths) :
    Artifact.load d path = Artifact.load start path := by
  have houtside := hsteady.outside.mono fun _ hname => hname.mono hroom
  have hmodule := h.temporaries.unmentioned path (List.mem_append_left _ hpath)
  exact Artifact.load_congr (houtside.read h.temporaries.working hmodule)
    (houtside.read h.temporaries.working (Artifact.unmentioned_symbolsPath hmodule))

/-- A verification keeps a compiler steady. -/
theorem Undisturbed.steady (plugin : Submission) (h : v.Undisturbed start bound paths)
    (hsteady : Steady start v.references c d) (hroom : d.temporaries + 2 ≤ bound)
    (hpaths : ∀ path ∈ plugin.paths, path ∈ paths) :
    Steady start v.references (v.verify c d plugin).compiler (v.verify c d plugin).disk ∧
      (v.verify c d plugin).disk.temporaries ≤ d.temporaries + 2 := by
  cases plugin with
  | binary identity path => exact ⟨hsteady, Nat.le_add_right _ _⟩
  | source identity files =>
    obtain ⟨hkept, hcount, _⟩ := hsteady.compile true h.temporaries hroom h.toolchain
      (fun path hpath => List.mem_append_left _ (hpaths path hpath)) fun path => List.mem_append_right _
    exact ⟨hkept, hcount⟩

/-- A verification does not depend on what the compiler has done before. -/
theorem Undisturbed.result_eq (h : v.Undisturbed start bound paths) (hsteady : Steady start v.references c d)
    (hroom : d.temporaries + 2 ≤ bound) (hsteady' : Steady start v.references c' d')
    (hroom' : d'.temporaries + 2 ≤ bound) (hpaths : ∀ path ∈ plugin.paths, path ∈ paths) :
    (v.verify c d plugin).result = (v.verify c' d' plugin).result := by
  cases plugin with
  | binary identity path =>
    have hpath := hpaths path List.mem_cons_self
    have hload := h.load hsteady (Nat.le_of_add_right_le hroom) hpath
    have hload' := h.load hsteady' (Nat.le_of_add_right_le hroom') hpath
    simp only [verify, obtain, hload, hload']
  | source identity files =>
    have hsources : ∀ path ∈ files, path ∈ paths ++ v.references.paths := fun path hpath =>
      List.mem_append_left _ (hpaths path hpath)
    have hreferences : ∀ path ∈ v.references.paths, path ∈ paths ++ v.references.paths := fun path =>
      List.mem_append_right _
    obtain ⟨_, _, hcomes⟩ :=
      hsteady.compile true h.temporaries hroom h.toolchain hsources hreferences
    obtain ⟨_, _, hcomes'⟩ :=
      hsteady'.compile true h.temporaries hroom' h.toolchain hsources hreferences
    have hsame := hcomes.unique h.toolchain hcomes'
    simp only [verify, obtain, CompileOptions.forAnalysis, hsame]

/-- Several verifications give what each gives alone. -/
theorem Undisturbed.results_eq (h : v.Undisturbed start bound paths) (reuse : Bool)
    (hsteady : Steady start v.references c d) (hroom : d.temporaries + 2 * plugins.length ≤ bound)
    (hpaths : ∀ plugin ∈ plugins, ∀ path ∈ plugin.paths, path ∈ paths) :
    (v.verifyAll c d plugins).result = plugins.map fun plugin => (v.verify (.ofReuse reuse) start plugin).result := by
  induction plugins generalizing c d with
  | nil => rfl
  | cons plugin rest ih =>
    rw [List.length_cons] at hroom
    rw [List.forall_mem_cons] at hpaths
    have hgrown := hsteady.grown
    obtain ⟨hkept, hcount⟩ := h.steady plugin hsteady (by omega) hpaths.1
    have hfirst := h.result_eq hsteady (by omega) (steady_start start v.references reuse) (by omega) hpaths.1
    rw [verifyAll, List.map_cons, ← hfirst, ← ih hkept (by omega) hpaths.2]

/-- With a reproducible toolchain every plugin is reported on as if it were verified alone, with a new compiler and
    on the disk as it was at the start; so when the plugins come in another order, their reports do. This is so
    if the names of temporary directories, of which a verification makes at most two, are new: nothing has them
    at the start, and no path of a plugin or a reference goes through them. -/
theorem verifyAll_eq_map_verify (v : Verifier) (reuse : Bool) (start : Disk) (plugins : List Submission)
    (htoolchain : Reproducible v.toolchain)
    (htemporaries : NewTemporaries start (start.temporaries + 2 * plugins.length)
      (plugins.flatMap Submission.paths ++ v.references.paths)) :
    (v.verifyAll (.ofReuse reuse) start plugins).result =
        plugins.map (fun plugin => (v.verify (.ofReuse reuse) start plugin).result) ∧
      ∀ others : List Submission, others.Perm plugins →
        (v.verifyAll (.ofReuse reuse) start others).result.Perm (v.verifyAll (.ofReuse reuse) start plugins).result := by
  have hundisturbed : v.Undisturbed start _ _ := ⟨htoolchain, htemporaries⟩
  have hpaths : ∀ plugin ∈ plugins, ∀ path ∈ plugin.paths, path ∈ plugins.flatMap Submission.paths :=
    fun plugin hplugin path hpath => List.mem_flatMap.mpr ⟨plugin, hplugin, hpath⟩
  have hsteady := steady_start start v.references reuse
  have hresults := hundisturbed.results_eq reuse hsteady (Nat.le_refl _) hpaths
  refine ⟨hresults, fun others hothers => ?_⟩
  have hlength : start.temporaries + 2 * others.length ≤ start.temporaries + 2 * plugins.length := by
    rw [hothers.length_eq]
  rw [hresults, hundisturbed.results_eq reuse hsteady hlength fun plugin hplugin =>
    hpaths plugin (hothers.mem_iff.mp hplugin)]
  exact hothers.map _

end Verifier

namespace Batch

/-- A module that starts processes. -/
def module : List UInt8 := Workshop.artifact.module

/-- A module that no tier takes offence at. -/
def library : List UInt8 := (Workshop.artifactWith (.named "System" "Int32")).module

/-- What is compiled if all sources and references can be read. -/
def make (task : Task) : Except (List Diagnostic) (List UInt8) :=
  if task.sources.all (·.2.isOk) && task.references.all (·.2.isOk) then .ok module
  else .error [.ofMessage "no such source"]

def disk : Disk :=
  ⟨[("a.cs", .file []), ("lib.pwmod", .file library), ("tmp", .directory [])], [], 0⟩

def verifier : Verifier := ⟨.reference, taskToolchain make, ⟨["lib.pwmod"], [⟨"game.pwmod", [1, 2, 3]⟩]⟩⟩

def plugins : List Submission :=
  [.source "a" ["a.cs"], .source "missing" ["b.cs"], .binary "lib" "lib.pwmod", .source "again" ["a.cs"]]

theorem newTemporaries : NewTemporaries disk 8 ["a.cs", "b.cs", "lib.pwmod", "a.cs", "lib.pwmod"] where
  isNew := by
    have hall : ∀ st ∈ temporaryStarts, ∀ n < 8,
        ((ofNames ["tmp", temporaryName st n]).toList.contains '\x00' = false ∧
          (Text.utf8 (ofNames ["tmp", temporaryName st n]).toList).length ≤ maxPathBytes ∧
          ∀ name ∈ ["tmp", temporaryName st n], (Text.utf8 name.toList).length ≤ maxNameBytes) ∧
        (disk.entryAt? ["tmp", temporaryName st n]).isNone = true := by decide +kernel
    rintro name ⟨st, hstart, n, _, hn, rfl⟩
    obtain ⟨⟨hnul, hpath, hnames⟩, habsent⟩ := hall st hstart n hn
    exact ⟨⟨hnul, hpath, hnames⟩, Option.isNone_iff_eq_none.mp habsent⟩
  working := outside_nil _
  unmentioned path hpath s hs := by
    -- The names of temporary directories have hyphens in them.
    have hstarts : ∀ st ∈ temporaryStarts, '-' ∈ st.toList := by decide
    have hsegments : ∀ path ∈ ["a.cs", "b.cs", "lib.pwmod", "a.cs", "lib.pwmod"],
        ∀ s ∈ segments path, '-' ∉ s := by decide +kernel
    rintro ⟨st, hstart, n, _, _, heq⟩
    refine hsegments path hpath s hs ?_
    have hchars := congrArg String.toList heq
    rw [String.toList_ofList, temporaryName, String.toList_append] at hchars
    rw [hchars]
    exact List.mem_append_left _ (hstarts st hstart)

/-- A plugin that is compiled twice, one that cannot be compiled, and a module between them. -/
theorem plugins_verified_alone :
    (verifier.verifyAll (.ofReuse true) disk plugins).result =
        plugins.map (fun plugin => (verifier.verify (.ofReuse true) disk plugin).result) ∧
      (verifier.verifyAll (.ofReuse true) disk plugins).result.map
        (fun r => (r.compileErrors.length, r.highestPassedTier)) =
          [(0, some 1), (1, none), (0, some 4), (0, some 1)] ∧
      (verifier.verifyAll (.ofReuse true) disk plugins.reverse).result.Perm
        (verifier.verifyAll (.ofReuse true) disk plugins).result := by
  obtain ⟨hresults, hreordered⟩ := verifier.verifyAll_eq_map_verify true disk plugins
    (ToolchainCall.reproducible_taskToolchain make) newTemporaries
  exact ⟨hresults, by decide +kernel, hreordered _ (List.reverse_perm plugins)⟩

end Batch

end PluginHost
