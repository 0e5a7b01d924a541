import PluginHost.Cli.Collection
/-!
Which plugins are collected: every plugin file in the directories that are given, and every file that is given
by its own path, whatever it is called.

A file is classified as a module by its extension in upper or lower case, but it is collected from a directory by
its extension as it is written. Main statement: a module in a directory that is given is collected exactly if
its extension is written in lower case.
-/

namespace PluginHost

/-- Names lead from an entry to a file. -/
inductive Entry.Holds : Entry → List String → Prop where
  | here (bytes : List UInt8) : Holds (.file bytes) []
  | inside {entries : List (String × Entry)} {name : String} {child : Entry} {names : List String}
    (hmem : (name, child) ∈ entries) (h : Holds child names) : Holds (.directory entries) (name :: names)

namespace Entry

theorem holds_file_iff {bytes : List UInt8} {names : List String} : (file bytes).Holds names ↔ names = [] := by
  constructor
  · rintro ⟨⟩
    rfl
  · rintro rfl
    exact .here bytes

theorem not_holds_empty {names : List String} : ¬ (directory []).Holds names := by
  rintro (_ | ⟨hmem, _⟩)
  exact List.not_mem_nil hmem

theorem holds_cons_iff {name : String} {child : Entry} {rest : List (String × Entry)} {names : List String} :
    (directory ((name, child) :: rest)).Holds names ↔
      (∃ below, child.Holds below ∧ names = name :: below) ∨ (directory rest).Holds names := by
  constructor
  · rintro (_ | ⟨hmem, h⟩)
    rcases List.mem_cons.mp hmem with heq | hrest
    · cases heq
      exact Or.inl ⟨_, h, rfl⟩
    · exact Or.inr (.inside hrest h)
  · rintro (⟨below, h, rfl⟩ | (_ | ⟨hmem, h⟩))
    · exact .inside List.mem_cons_self h
    · exact .inside (List.mem_cons_of_mem _ hmem) h

/-- What is found at the end of names is held there. -/
theorem Holds.of_find? {names : List String} {e : Entry} {bytes : List UInt8}
    (h : find? names e = some (file bytes)) : e.Holds names := by
  induction names generalizing e with
  | nil =>
    cases h
    exact .here bytes
  | cons name rest ih =>
    cases e with
    | file other => cases h
    | directory entries =>
      obtain ⟨child, hchild, hfound⟩ := Option.bind_eq_some_iff.mp h
      exact .inside (Assoc.mem_of_get? hchild) (ih hfound)

end Entry

namespace Cli

variable {file : String}

mutual

theorem mem_pluginFiles_iff (path : String) (e : Entry) :
    file ∈ pluginFiles path e ↔ ∃ names, e.Holds names ∧ file = names.foldl Path.join path ∧ isPluginFile file :=
  match e with
  | .file bytes => by
    simp only [pluginFiles, Entry.holds_file_iff, exists_eq_left, List.foldl_nil]
    by_cases hplugin : isPluginFile path
    · simp +contextual [hplugin]
    · simp +contextual [hplugin]
  | .directory entries => by
    rw [pluginFiles]
    exact mem_pluginFilesIn_iff path entries

theorem mem_pluginFilesIn_iff (path : String) (entries : List (String × Entry)) :
    file ∈ pluginFilesIn path entries ↔
      ∃ names, (Entry.directory entries).Holds names ∧ file = names.foldl Path.join path ∧ isPluginFile file :=
  match entries with
  | [] => by simp [pluginFilesIn, Entry.not_holds_empty]
  | (name, e) :: rest => by
    rw [pluginFilesIn, List.mem_append, mem_pluginFiles_iff (Path.join path name) e, mem_pluginFilesIn_iff path rest]
    simp only [Entry.holds_cons_iff, or_and_right, exists_or]
    refine or_congr_left ⟨?_, ?_⟩
    · rintro ⟨below, h, hfile⟩
      exact ⟨name :: below, ⟨below, h, rfl⟩, hfile⟩
    · rintro ⟨_, ⟨below, h, rfl⟩, hfile⟩
      exact ⟨below, h, hfile⟩

end

/-- A path stands for a file: it leads to it, or it leads to a directory in which the file is a plugin file. -/
inductive StandsFor (disk : Disk) (path : String) : String → Prop where
  | itself {bytes : List UInt8} (hlookup : disk.lookup path = .ok (.file bytes)) : StandsFor disk path path
  | below {entries : List (String × Entry)} {names : List String}
    (hlookup : disk.lookup path = .ok (.directory entries)) (h : (Entry.directory entries).Holds names)
    (hplugin : isPluginFile (names.foldl Path.join path)) : StandsFor disk path (names.foldl Path.join path)

variable {disk : Disk} {path : String} {files : List String}

theorem mem_collectAt_iff (hcollect : collectAt disk path = .ok files) : file ∈ files ↔ StandsFor disk path file := by
  cases hlookup : disk.lookup path with
  | error fault => simp [collectAt, hlookup] at hcollect
  | ok e =>
    rw [collectAt, hlookup] at hcollect
    cases e with
    | file bytes =>
      cases hcollect
      rw [List.mem_singleton]
      constructor
      · rintro rfl
        exact .itself hlookup
      · rintro (_ | ⟨hother, _, _⟩)
        · rfl
        · simp [hlookup] at hother
    | directory entries =>
      cases hcollect
      rw [mem_pluginFilesIn_iff]
      constructor
      · rintro ⟨names, h, rfl, hplugin⟩
        exact .below hlookup h hplugin
      · rintro (hother | ⟨hsame, h, hplugin⟩)
        · simp [hlookup] at hother
        · cases hlookup.symm.trans hsame
          exact ⟨_, h, rfl, hplugin⟩

theorem collect_cons_eq_ok {paths : List String} (hcollect : collect disk (path :: paths) = .ok files) :
    ∃ first others, collectAt disk path = .ok first ∧ collect disk paths = .ok others ∧
      files = first ++ others := by
  rw [collect, List.mapM_cons] at hcollect
  cases hfirst : collectAt disk path with
  | error fault => simp [hfirst, bind, Except.bind, Except.map] at hcollect
  | ok first =>
    cases hothers : paths.mapM (collectAt disk) with
    | error fault => simp [hfirst, hothers, bind, Except.bind, Except.map] at hcollect
    | ok others =>
      rw [hfirst, hothers] at hcollect
      cases hcollect
      exact ⟨first, others.flatten, rfl, by rw [collect, hothers]; rfl, rfl⟩

/-- Nothing that a path stands for is left out, and nothing else is taken in. -/
theorem mem_collect_iff {paths : List String} (hcollect : collect disk paths = .ok files) :
    file ∈ files ↔ ∃ path ∈ paths, StandsFor disk path file := by
  induction paths generalizing files with
  | nil =>
    cases hcollect
    simp
  | cons path rest ih =>
    obtain ⟨first, others, hfirst, hothers, rfl⟩ := collect_cons_eq_ok hcollect
    simp only [List.mem_append, mem_collectAt_iff hfirst, ih hothers, List.mem_cons, exists_eq_or_imp]

end Cli

/-! Collection and classification by extension. -/

namespace Submission

variable {root : Option String} {file identity path : String}

theorem namesModule_of_ofPath (h : ofPath root file = .binary identity path) : namesModule file = true := by
  rw [ofPath] at h
  split at h
  · assumption
  · cases h

end Submission

namespace Cli

variable {root : Option String} {file : String}

theorem isPluginFile_iff :
    isPluginFile file = true ↔
      Path.extension? file = some sourceExtension ∨ Path.extension? file = some moduleExtension := by
  rw [isPluginFile]
  cases Path.extension? file with
  | none => simp
  | some extension => simp

/-- Among the extensions of modules only the one in lower case is collected. -/
theorem isPluginFile_iff_of_namesModule (h : Submission.namesModule file = true) :
    isPluginFile file = true ↔ Path.extension? file = some moduleExtension := by
  refine isPluginFile_iff.trans (or_iff_right fun hsource => ?_)
  rw [Submission.namesModule, hsource] at h
  exact absurd h (by decide)

theorem collect_singleton {disk : Disk} {directory : String} {files : List String} :
    collect disk [directory] = .ok files ↔ collectAt disk directory = .ok files := by
  rw [collect, List.mapM_cons, List.mapM_nil]
  cases collectAt disk directory <;> simp [bind, Except.bind, pure, Except.pure, Except.map]

/-- Names lead from a directory that is given to a file, at any depth, and the file is classified as a module. Then
    the directory is collected, and the file is among what is collected exactly if its extension is written in
    lower case. -/
theorem module_collected_iff (root : Option String) (disk : Disk) (directory : String)
    (entries : List (String × Entry)) (names : List String) (identity : String)
    (hlookup : disk.lookup directory = .ok (.directory entries)) (hholds : (Entry.directory entries).Holds names)
    (hmodule : Submission.ofPath root (names.foldl Path.join directory) =
      .binary identity (names.foldl Path.join directory)) :
    let file := names.foldl Path.join directory
    ∃ files, collect disk [directory] = .ok files ∧
      (file ∈ files ↔ Path.extension? file = some moduleExtension) := by
  intro file
  have hcollect : collectAt disk directory = .ok (pluginFilesIn directory entries) := by
    rw [collectAt, hlookup]
  refine ⟨_, collect_singleton.mpr hcollect, ?_⟩
  rw [mem_pluginFilesIn_iff, ← isPluginFile_iff_of_namesModule (Submission.namesModule_of_ofPath hmodule)]
  exact ⟨fun ⟨_, _, _, hplugin⟩ => hplugin, fun hplugin => ⟨names, hholds, rfl, hplugin⟩⟩

end Cli

namespace Cased

/-- What is in the directory of modules: modules in both cases, one of them in a directory with the name of a
    source. -/
def entries : List (String × Entry) :=
  [("A.PWMOD", .file []), ("deep.cs", .directory [("b.pwmod", .file [])]), ("notes.txt", .file [])]

def disk : Disk := ⟨[("mods", .directory entries)], [], 0⟩

theorem lower_case_module_collected :
    Submission.ofPath (some "/mods") "/mods/deep.cs/b.pwmod" = .binary "deep.cs/b.pwmod" "/mods/deep.cs/b.pwmod" ∧
      ∃ files, Cli.collect disk ["/mods"] = .ok files ∧ "/mods/deep.cs/b.pwmod" ∈ files := by
  have hmodule : Submission.ofPath (some "/mods") "/mods/deep.cs/b.pwmod" =
      .binary "deep.cs/b.pwmod" "/mods/deep.cs/b.pwmod" := by decide +kernel
  have hholds : (Entry.directory entries).Holds ["deep.cs", "b.pwmod"] := .of_find? rfl
  obtain ⟨files, hfiles, hmem⟩ := Cli.module_collected_iff (some "/mods") disk "/mods" entries
    ["deep.cs", "b.pwmod"] _ rfl hholds hmodule
  exact ⟨hmodule, files, hfiles, hmem.mpr (by decide +kernel)⟩

/-- A module whose extension is in upper case: it is accepted by its own path, and passed over in its directory. -/
theorem upper_case_module_skipped :
    Submission.ofPath (some "/mods") "/mods/A.PWMOD" = .binary "A.PWMOD" "/mods/A.PWMOD" ∧
      Cli.collect disk ["/mods/A.PWMOD"] = .ok ["/mods/A.PWMOD"] ∧
      Cli.collect disk ["/mods"] = .ok ["/mods/deep.cs/b.pwmod"] :=
  ⟨by decide +kernel, rfl, rfl⟩

end Cased

end PluginHost
