import Mathlib.Data.List.Nodup
import PluginHost.Cli.Execution
import PluginHost.Proofs.Compile.UnitNames
/-!
What is built can be read back.

The streams of an artifact are written as files next to each other, the symbols only if there are any, and an
artifact is read with whatever symbols stand next to its module. Main statement: after a build that succeeds
every artifact is read back as it was compiled, but for one without symbols of its own next to which symbols
were there before.
-/

namespace PluginHost

open Disk PluginHost.Path

namespace Artifact

/-- The files of an artifact: name and bytes of each. -/
def files (a : Artifact) : List (String × List UInt8) :=
  (withDot a.name moduleExtension, a.module) ::
    a.symbols.toList.map fun symbols => (withDot a.name symbolsExtension, symbols)

variable {a b : Artifact} {artifacts : List Artifact} {dir : String} {disk : Disk} {file : String × List UInt8}

theorem mem_files_iff : file ∈ a.files ↔
    file = (withDot a.name moduleExtension, a.module) ∨
      ∃ symbols, a.symbols = some symbols ∧ file = (withDot a.name symbolsExtension, symbols) := by
  rw [files, List.mem_cons, List.mem_map]
  simp [eq_comm]

/-- The name of every file of an artifact is its own name with an extension. -/
theorem name_of_mem_files (hfile : file ∈ a.files) : ∃ ext, IsExtension ext ∧ file.1 = withDot a.name ext := by
  rcases mem_files_iff.mp hfile with rfl | ⟨symbols, _, rfl⟩
  · exact ⟨_, isExtension_module, rfl⟩
  · exact ⟨_, isExtension_symbols, rfl⟩

theorem isName_of_mem_files (hstem : IsStem a.name) (hfile : file ∈ a.files) : IsName file.1 := by
  obtain ⟨ext, hext, hname⟩ := name_of_mem_files hfile
  exact hname ▸ hstem.isName_withDot hext

theorem nodup_files (hstem : IsStem a.name) : (a.files.map Prod.fst).Nodup := by
  rw [files]
  cases a.symbols with
  | none => exact List.nodup_singleton _
  | some symbols =>
    have hne : withDot a.name moduleExtension ≠ withDot a.name symbolsExtension := fun heq =>
      absurd (hstem.withDot_inj isExtension_module hstem isExtension_symbols heq).2 (by decide)
    simp [hne]

/-- Artifacts of different names have files of different names. -/
theorem nodup_files_of_names (hnodup : (artifacts.map (·.name)).Nodup) (hstems : ∀ a ∈ artifacts, IsStem a.name) :
    ((artifacts.flatMap files).map Prod.fst).Nodup := by
  rw [List.map_flatMap, List.nodup_flatMap]
  refine ⟨fun a ha => nodup_files (hstems a ha), ?_⟩
  refine (List.pairwise_map.mp hnodup).imp_of_mem fun {a b} ha hb hne name hname hname' => hne ?_
  obtain ⟨file, hfile, rfl⟩ := List.mem_map.mp hname
  obtain ⟨other, hother, heq⟩ := List.mem_map.mp hname'
  obtain ⟨ext, hext, hfirst⟩ := name_of_mem_files hfile
  obtain ⟨ext', hext', hsecond⟩ := name_of_mem_files hother
  rw [hfirst, hsecond] at heq
  exact ((hstems b hb).withDot_inj hext' (hstems a ha) hext heq).1.symm

theorem symbolsPath_join (hstem : IsStem a.name) :
    symbolsPath (join dir (withDot a.name moduleExtension)) = join dir (withDot a.name symbolsExtension) :=
  withExtension_join hstem isExtension_module isExtension_symbols

theorem readBytes_of_lookup {path : String} {bytes : List UInt8} (h : disk.lookup path = .ok (.file bytes)) :
    readBytes disk path = .ok bytes := by
  rw [readBytes, Disk.read, h]
  rfl

theorem isFile_of_lookup {path : String} {bytes : List UInt8} (h : disk.lookup path = .ok (.file bytes)) :
    disk.isFile path = true := by
  rw [Disk.isFile, h]

/-- An artifact whose files are there is read unless it has no symbols and some stand next to it. -/
theorem load_eq_ok_iff (hstem : IsStem a.name) (hheaded : a.WellHeaded)
    (hfiles : ∀ file ∈ a.files, disk.lookup (join dir file.1) = .ok (.file file.2)) :
    load disk (join dir (withDot a.name moduleExtension)) = .ok a ↔
      (a.symbols = none → disk.isFile (join dir (withDot a.name symbolsExtension)) = false) := by
  have hmodule := readBytes_of_lookup (hfiles _ (mem_files_iff.mpr (Or.inl rfl)))
  rw [load, hmodule, symbolsPath_join hstem, stem?_join hstem isExtension_module, Option.getD_some]
  simp only [bind, Except.bind]
  cases hsymbols : a.symbols with
  | some symbols =>
    have hthere := hfiles _ (mem_files_iff.mpr (Or.inr ⟨symbols, hsymbols, rfl⟩))
    rw [if_pos (isFile_of_lookup hthere), readBytes_of_lookup hthere]
    simp only [Except.map]
    rw [WellHeaded, hsymbols] at hheaded
    exact ⟨fun _ hnone => (nomatch hnone), fun _ => hheaded⟩
  | none =>
    rw [WellHeaded, hsymbols] at hheaded
    cases hfile : disk.isFile (join dir (withDot a.name symbolsExtension)) with
    | false => exact ⟨fun _ _ => rfl, fun _ => hheaded⟩
    | true =>
      refine ⟨fun hload => ?_, fun hnot => (nomatch hnot rfl)⟩
      -- Whatever is read next to the module is taken for the symbols of the artifact.
      cases hread : readBytes disk (join dir (withDot a.name symbolsExtension)) with
      | error fault =>
        rw [hread] at hload
        cases hload
      | ok bytes =>
        rw [if_pos rfl, hread] at hload
        rw [eq_of_ofBytes hload] at hsymbols
        cases hsymbols

end Artifact

namespace Cli

variable {disk disk' : Disk} {dir path : String} {a : Artifact} {artifacts : List Artifact} {isQuiet : Bool}

theorem writesIn_of_writeModule (hstem : IsStem a.name) (h : writeModule dir disk a = (disk', .ok path)) :
    WritesIn dir disk a.files disk' := by
  have hpath : Artifact.symbolsPath (join dir (withDot a.name moduleExtension)) =
      join dir (withDot a.name Artifact.symbolsExtension) := Artifact.symbolsPath_join hstem
  unfold writeModule at h
  cases hmodule : disk.write (join dir (withDot a.name moduleExtension)) a.module with
  | error fault =>
    rw [withDot] at hmodule
    simp [hmodule] at h
  | ok middle =>
    refine .cons hmodule ?_
    rw [withDot] at hmodule hpath
    simp only [hmodule, hpath] at h
    cases hsymbols : a.symbols with
    | none =>
      rw [hsymbols] at h
      cases h
      exact .nil _
    | some symbols =>
      rw [hsymbols] at h
      dsimp only at h
      cases hwrite : middle.write (join dir (withDot a.name Artifact.symbolsExtension)) symbols with
      | error fault =>
        simp [hwrite] at h
      | ok after =>
        rw [hwrite] at h
        cases h
        exact .cons hwrite (.nil _)

/-- Modules that are all written: the first one is, and the others are on the disk that it leaves. -/
theorem writeModules_cons_eq_ok {rest : List Artifact}
    (h : (writeModules dir isQuiet disk (a :: rest)).result = .ok ()) :
    ∃ middle path, writeModule dir disk a = (middle, .ok path) ∧
      (writeModules dir isQuiet middle rest).result = .ok () ∧
      (writeModules dir isQuiet disk (a :: rest)).disk = (writeModules dir isQuiet middle rest).disk := by
  unfold writeModules at h
  rcases hmodule : writeModule dir disk a with ⟨middle, fault | path⟩
  · rw [hmodule] at h
    cases h
  · rw [hmodule] at h
    refine ⟨middle, path, rfl, h, ?_⟩
    conv_lhs => unfold writeModules
    rw [hmodule]

/-- Modules that are all written are written file after file. -/
theorem writesIn_of_writeModules (hstems : ∀ a ∈ artifacts, IsStem a.name)
    (h : (writeModules dir isQuiet disk artifacts).result = .ok ()) :
    WritesIn dir disk (artifacts.flatMap Artifact.files) (writeModules dir isQuiet disk artifacts).disk := by
  induction artifacts generalizing disk with
  | nil =>
    unfold writeModules
    exact .nil disk
  | cons a rest ih =>
    rw [List.forall_mem_cons] at hstems
    obtain ⟨middle, path, hmodule, hrest, hdisk⟩ := writeModules_cons_eq_ok h
    rw [hdisk, List.flatMap_cons]
    exact (writesIn_of_writeModule hstems.1 hmodule).append (ih hstems.2 hrest)

/-- What a build compiles, by the settings that hold. -/
def compilation (around : Surroundings) (s : Settings) (disk : Disk) (o : BuildOptions) : Compilation :=
  let mode := if o.perSource then CompileMode.perSource else .combined
  (compilerOf s).compile (toolchainOf around s) disk o.sources (referencesOf s o.references)
    ⟨mode, s.compiler.emitDebugSymbols⟩

/-- The disk that the modules of a build are written to: nothing is staged any more, and their directory is made. -/
def readyForModules (around : Surroundings) (s : Settings) (disk : Disk) (o : BuildOptions) :
    Disk × Except IoFault Unit :=
  ((compilation around s disk o).compiler.cleanup (compilation around s disk o).disk).2.makeDirectories o.directory

variable {around : Surroundings} {c : CommandLine} {o : BuildOptions}

/-- A build that succeeds has compiled its sources and has written what came of them. -/
theorem compile_eq_ok (h : (compile around disk c o).result = .ok ()) :
    ∃ s artifacts, loadSettings around disk = .ok s ∧ (compilation around s disk o).result = .ok artifacts ∧
      compile around disk c o =
        writeModules o.directory c.isQuiet (readyForModules around s disk o).1 artifacts := by
  cases hsettings : loadSettings around disk with
  | error fault =>
    unfold compile at h
    rw [hsettings] at h
    cases h
  | ok s =>
    unfold compile at h ⊢
    rw [hsettings] at h ⊢
    dsimp only at h ⊢
    rw [← compilation, ← readyForModules] at h ⊢
    cases hresult : (compilation around s disk o).result with
    | error fault =>
      rw [hresult] at h
      cases h
    | ok artifacts =>
      rw [hresult] at h
      rcases hready : readyForModules around s disk o with ⟨ready, fault | _⟩
      · rw [hready] at h
        cases h
      · exact ⟨s, artifacts, rfl, hresult, by rw [hready]⟩

theorem isFile_eq_of_lookup (h : ∀ e, disk'.lookup path = .ok e ↔ disk.lookup path = .ok e) :
    disk'.isFile path = disk.isFile path := by
  rw [Bool.eq_iff_iff, Disk.isFile, Disk.isFile]
  cases hbefore : disk.lookup path with
  | ok e => rw [(h e).mpr hbefore]
  | error fault =>
    cases hafter : disk'.lookup path with
    | ok e =>
      rw [(h e).mp hafter] at hbefore
      cases hbefore
    | error _ => exact Iff.rfl

/-- The symbols of an artifact that has none are not among the files that are written. -/
theorem ne_symbols_of_mem_files (hnodup : (artifacts.map (·.name)).Nodup) (hstems : ∀ a ∈ artifacts, IsStem a.name)
    (ha : a ∈ artifacts) (hnone : a.symbols = none) :
    ∀ file ∈ artifacts.flatMap Artifact.files, file.1 ≠ withDot a.name Artifact.symbolsExtension := by
  intro file hfile heq
  obtain ⟨b, hb, hfile⟩ := List.mem_flatMap.mp hfile
  rcases Artifact.mem_files_iff.mp hfile with rfl | ⟨symbols, hsymbols, rfl⟩
  · have hext := ((hstems b hb).withDot_inj Artifact.isExtension_module (hstems a ha) Artifact.isExtension_symbols
      heq).2
    exact absurd hext (by decide)
  · have hname := ((hstems b hb).withDot_inj Artifact.isExtension_symbols (hstems a ha)
      Artifact.isExtension_symbols heq).1
    rw [List.inj_on_of_nodup_map hnodup hb ha hname, hnone] at hsymbols
    cases hsymbols

/-- After a build that succeeds, on whatever disk, the artifacts have different names, and each is read back from
    its module with the same name and the same streams, exactly if it has symbols of its own or no symbols
    stood next to its module before the modules were written. -/
theorem compile_read_back_iff (h : (compile around disk c o).result = .ok ()) :
    ∃ s artifacts, loadSettings around disk = .ok s ∧ (compilation around s disk o).result = .ok artifacts ∧
      (artifacts.map (·.name)).Nodup ∧
      ∀ a ∈ artifacts,
        let path := Path.join o.directory (a.name ++ "." ++ moduleExtension)
        Artifact.load (compile around disk c o).disk path = .ok a ↔
          (a.symbols = none →
            (readyForModules around s disk o).1.isFile (Artifact.symbolsPath path) = false) := by
  obtain ⟨s, artifacts, hsettings, hresult, hcompile⟩ := compile_eq_ok h
  have hcompiled := hresult
  rw [compilation] at hcompiled
  obtain ⟨hnodup, hartifacts⟩ := Compiler.compile_names hcompiled
  have hstems : ∀ a ∈ artifacts, IsStem a.name := fun a ha => (hartifacts a ha).1
  have hnames : ∀ file ∈ artifacts.flatMap Artifact.files, IsName file.1 := fun file hfile => by
    obtain ⟨b, hb, hfile⟩ := List.mem_flatMap.mp hfile
    exact Artifact.isName_of_mem_files (hstems b hb) hfile
  rw [hcompile] at h
  have hwrites := writesIn_of_writeModules hstems h
  have hfound := hwrites.lookup_written hnames (Artifact.nodup_files_of_names hnodup hstems)
  refine ⟨s, artifacts, hsettings, hresult, hnodup, fun a ha => ?_⟩
  intro path
  have hfiles : ∀ file ∈ a.files, _ := fun file hfile => hfound file (List.mem_flatMap.mpr ⟨a, ha, hfile⟩)
  have hload := Artifact.load_eq_ok_iff (hstems a ha) (hartifacts a ha).2 hfiles
  have hsymbols : Artifact.symbolsPath path = join o.directory (withDot a.name Artifact.symbolsExtension) :=
    Artifact.symbolsPath_join (hstems a ha)
  rw [hcompile, hsymbols]
  refine hload.trans (forall_congr' fun hnone => ?_)
  rw [isFile_eq_of_lookup (hwrites.lookup_other hnames
    ((hstems a ha).isName_withDot Artifact.isExtension_symbols) (ne_symbols_of_mem_files hnodup hstems ha hnone))]

end Cli

namespace Rebuilt

open Cli

def module : List UInt8 := Stream.moduleMagic ++ [1, 0, 2, 0, 0, 0, 123, 125]
def fresh : List UInt8 := Stream.symbolsMagic ++ [1, 0, 1, 0, 0, 0, 48]
def stale : List UInt8 := Stream.symbolsMagic ++ [1, 0, 1, 0, 0, 0, 49]

/-- Writes files at the paths that arguments name after five characters. -/
def writeAt (disk : Disk) : List (String × List UInt8) → Disk × Except IoFault ProgramResult
  | [] => (disk, .ok ⟨.code 0, [], []⟩)
  | (argument, bytes) :: rest =>
    match disk.write (String.ofList (argument.toList.drop 5)) bytes with
    | .ok disk => writeAt disk rest
    | .error fault => (disk, .error fault)

/-- A program that writes some streams at the outputs of every call. -/
def around (streams : List (List UInt8)) : Surroundings :=
  ⟨⟨[("PATCHWORK_CONFIG_DIR", "/settings")]⟩,
    fun disk _ arguments => writeAt disk ((arguments.drop 1).zip streams), "2025-01-01T00:00:00Z"⟩

/-- An earlier build has left symbols of one module, and another module without symbols. -/
def disk : Disk :=
  ⟨[("out", .directory [("a-2.pwmod", .file [1]), ("a.pwsym", .file stale)]), ("tmp", .directory [])], [], 0⟩

def options : BuildOptions := ⟨["a.cs", "b/a.cs"], "out/", true, []⟩
def line : CommandLine := ⟨.compile options, .text, true⟩

/-- Symbols that were there before are overwritten by others. -/
theorem fresh_symbols_read_back :
    (compile (around [module, fresh]) disk line options).result = .ok () ∧
      ∀ name ∈ ["a", "a-2"],
        Artifact.load (compile (around [module, fresh]) disk line options).disk ("out/" ++ name ++ ".pwmod") =
          .ok ⟨name, module, some fresh⟩ := by
  have hresult : (compile (around [module, fresh]) disk line options).result = .ok () := by decide +kernel
  obtain ⟨s, artifacts, hsettings, hcompiled, _, hread⟩ := compile_read_back_iff hresult
  cases hsettings
  have hmade : (compilation (around [module, fresh]) .standard disk options).result =
      .ok [⟨"a", module, some fresh⟩, ⟨"a-2", module, some fresh⟩] := by decide +kernel
  cases hcompiled.symm.trans hmade
  refine ⟨hresult, List.forall_mem_cons.mpr ⟨?_, List.forall_mem_singleton.mpr ?_⟩⟩
  · exact (hread ⟨"a", module, some fresh⟩ List.mem_cons_self).mpr nofun
  · exact (hread ⟨"a-2", module, some fresh⟩ (List.mem_cons_of_mem _ List.mem_cons_self)).mpr nofun

/-- Symbols that an earlier build has left, and that are read with a module that was compiled without any. -/
theorem stale_symbols_read :
    (compile (around [module]) disk line options).result = .ok () ∧
      (compilation (around [module]) .standard disk options).result =
        .ok [⟨"a", module, none⟩, ⟨"a-2", module, none⟩] ∧
      Artifact.load (compile (around [module]) disk line options).disk "out/a.pwmod" =
        .ok ⟨"a", module, some stale⟩ := by
  decide +kernel

end Rebuilt

end PluginHost
