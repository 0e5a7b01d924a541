import PluginHost.Proofs.Compile.Tasks
/-!
Compilers that compile against the same references again and again.

What is staged is carried from one compilation to the next, under names that are new each time. Main statement:
what a compilation comes to with a toolchain that is reproducible is told from the disk at the start, whatever
has been compiled since.
-/

namespace PluginHost

open Entry PluginHost.Path Disk

variable {start d d' : Disk} {c : Compiler} {r : References} {s : StagedReferences} {bound : Nat}
  {paths sources : List String} {path name : String} {toolchain : Toolchain}

/-- The temporary directories that are made until their number gets to a bound have new names, and neither the
    working directory nor any of some paths goes through one of them. -/
structure NewTemporaries (start : Disk) (bound : Nat) (paths : List String) : Prop where
  isNew : ∀ name, Between start.temporaries bound name → start.IsNew name
  working : Outside (Between start.temporaries bound) start.working
  unmentioned : ∀ path ∈ paths, Unmentioned (Between start.temporaries bound) path

/-- A binary is staged in a temporary directory that was made since the start. -/
def StagedSince (start d : Disk) (path : String) (blob : Blob) : Prop :=
  ∃ name, Between start.temporaries d.temporaries name ∧ StagedFile d name path blob

/-- The binaries of the references can be staged, and they are, since the start. -/
structure Kept (start : Disk) (r : References) (d : Disk) (s : StagedReferences) : Prop where
  directory : ∃ name, Between start.temporaries d.temporaries name ∧ s.directory = ofNames ["tmp", name]
  files : List.Forall₂ (StagedSince start d) s.paths r.blobs
  outcome : ∃ files, stagingOutcome start r = .ok files

/-- What holds of a compiler and its disk between compilations against the same references. -/
structure Steady (start : Disk) (r : References) (c : Compiler) (d : Disk) : Prop where
  grown : start.temporaries ≤ d.temporaries
  outside : SameOutside (Between start.temporaries d.temporaries) start d
  staged : ∀ s, c.staged = some s → Kept start r d s

theorem steady_start (start : Disk) (r : References) (reuse : Bool) : Steady start r (.ofReuse reuse) start :=
  ⟨Nat.le_refl _, .refl _ _, nofun⟩

/-! What was staged stays when other temporary directories are used. -/

theorem StagedSince.usesTemporary {blob : Blob} (huses : d.UsesTemporary d') (h : StagedSince start d path blob) :
    StagedSince start d' path blob := by
  obtain ⟨name, hname, hfile⟩ := h
  exact ⟨name, hname.mono huses.le, hfile.of_entryAt?_eq (huses.touches.others hname.not_between)⟩

theorem Kept.usesTemporary (huses : d.UsesTemporary d') (h : Kept start r d s) : Kept start r d' s := by
  obtain ⟨name, hname, hdirectory⟩ := h.directory
  exact ⟨⟨name, hname.mono huses.le, hdirectory⟩, h.files.imp fun _ _ => StagedSince.usesTemporary huses, h.outcome⟩

namespace Steady

theorem outside_usesTemporary (h : Steady start r c d) (huses : d.UsesTemporary d') :
    SameOutside (Between start.temporaries d'.temporaries) start d' := by
  refine (h.outside.mono fun name hname => hname.mono huses.le).trans (huses.touches.outside.mono ?_)
  rintro name ⟨st, hstart, n, hn, hlast, hname⟩
  exact ⟨st, hstart, n, Nat.le_trans h.grown hn, hlast, hname⟩

theorem usesTemporary (h : Steady start r c d) (huses : d.UsesTemporary d') : Steady start r c d' :=
  ⟨Nat.le_trans h.grown huses.le, h.outside_usesTemporary huses, fun s hs => (h.staged s hs).usesTemporary huses⟩

/-- Names that come next are new. -/
theorem isNew {st : String} (h : Steady start r c d) (hnew : NewTemporaries start bound paths)
    (hstart : st ∈ temporaryStarts) (hroom : d.temporaries < bound) :
    d.IsNew (temporaryName st d.temporaries) := by
  obtain ⟨hfits, habsent⟩ := hnew.isNew _ ⟨st, hstart, d.temporaries, h.grown, hroom, rfl⟩
  refine ⟨hfits, ?_⟩
  rw [← kindAt?_eq_none_iff] at habsent ⊢
  rw [h.outside.kind, habsent]
  exact (outside_tmp _).concat (not_between_of_le hstart (Nat.le_refl _))

/-- Paths that go through no temporary directory read as they did at the start. -/
theorem read (h : Steady start r c d) (hnew : NewTemporaries start bound paths) (hroom : d.temporaries ≤ bound)
    (hpath : path ∈ paths) : d.read path = start.read path :=
  (h.outside.mono fun _ hname => hname.mono hroom).read hnew.working (hnew.unmentioned path hpath)

theorem cleanup (h : Steady start r c d) :
    Steady start r (c.cleanup d).1 (c.cleanup d).2 ∧ (c.cleanup d).2.temporaries = d.temporaries ∧
      (c.cleanup d).1.staged = none := by
  cases hstaged : c.staged with
  | none =>
    have hdisk : (c.cleanup d).2 = d := by
      rw [Compiler.cleanup, hstaged]
      rfl
    rw [hdisk]
    exact ⟨⟨h.grown, h.outside, nofun⟩, rfl, rfl⟩
  | some s =>
    obtain ⟨name, hname, hdirectory⟩ := (h.staged s hstaged).directory
    have hdisk : (c.cleanup d).2 = d.removeTree (ofNames ["tmp", name]) := by
      rw [Compiler.cleanup, hstaged, ← hdirectory]
      rfl
    obtain ⟨htouches, htemporaries⟩ := touches_removeTree (d := d) hname.isName hname
    rw [hdisk]
    refine ⟨⟨?_, ?_, nofun⟩, htemporaries, rfl⟩
    · rw [htemporaries]
      exact h.grown
    · rw [htemporaries]
      exact h.outside.trans htouches.outside

end Steady

/-- Why references cannot be provided, if they cannot. -/
def providingFault? (start : Disk) (r : References) : Option Fault :=
  if r.blobs.isEmpty then none
  else
    match stagingOutcome start r with
    | .error fault => some fault
    | .ok _ => none

/-- What providing references comes to, by the disk at the start. -/
inductive ProvidesSince (start : Disk) (r : References) (d : Disk) : Except Fault (List String) → Prop
  | provided {staged : List String} (hnone : providingFault? start r = none)
    (hstaged : List.Forall₂ (StagedSince start d) staged r.blobs) : ProvidesSince start r d (.ok (r.paths ++ staged))
  | failed {fault : Fault} (hfault : providingFault? start r = some fault) : ProvidesSince start r d (.error fault)

theorem stagingOutcome_congr {names : String → Prop} (h : SameOutside names start d) (r : References) :
    stagingOutcome d r = stagingOutcome start r := by
  unfold stagingOutcome
  rw [h.temporaryFault?]

theorem Steady.provide (h : Steady start r c d) (hnew : NewTemporaries start bound paths)
    (hroom : d.temporaries < bound) :
    ∃ c' d' result, c.provide d r = (c', d', result) ∧ Steady start r c' d' ∧
      d'.temporaries ≤ d.temporaries + 1 ∧ ProvidesSince start r d' result := by
  unfold Compiler.provide
  by_cases hblobs : r.blobs.isEmpty = true
  · refine ⟨c, d, .ok r.paths, if_pos hblobs, h, Nat.le_succ _, ?_⟩
    have hstaged : List.Forall₂ (StagedSince start d) [] r.blobs := List.isEmpty_iff.mp hblobs ▸ .nil
    exact List.append_nil r.paths ▸ .provided (if_pos hblobs) hstaged
  · rw [if_neg hblobs]
    by_cases hreused : c.hasStaged d r = true
    · rw [if_pos hreused]
      cases hstaged : c.staged with
      | none => simp [Compiler.hasStaged, hstaged] at hreused
      | some s =>
        have hkept := h.staged s hstaged
        obtain ⟨files, hfiles⟩ := hkept.outcome
        refine ⟨c, d, _, rfl, h, Nat.le_succ _, .provided ?_ hkept.files⟩
        rw [providingFault?, if_neg hblobs, hfiles]
    · rw [if_neg hreused]
      obtain ⟨hcleaned, htemporaries, hnone⟩ := h.cleanup
      have hstart : "patchwork-refs-" ∈ temporaryStarts := by decide
      have hnewName := hcleaned.isNew hnew hstart (by omega)
      obtain ⟨d', huses, hstage, hfiles⟩ := StagedReferences.stage_of_new (r := r) rfl hnewName
      have houtcome := stagingOutcome_congr hcleaned.outside r
      have hsteady := hcleaned.usesTemporary huses
      have hcount := huses.le_succ
      dsimp only
      rw [hstage]
      rw [houtcome] at hfiles ⊢
      cases hstaging : stagingOutcome start r with
      | error fault =>
        refine ⟨_, d', _, rfl, hsteady, by omega, .failed ?_⟩
        rw [providingFault?, if_neg hblobs, hstaging]
      | ok files =>
        obtain ⟨hmore, hstaged⟩ := hfiles files hstaging
        have hbetween : Between start.temporaries d'.temporaries
            (temporaryName "patchwork-refs-" (c.cleanup d).2.temporaries) :=
          ⟨_, hstart, _, hcleaned.grown, hmore, rfl⟩
        have hsince := hstaged.imp fun path blob (hfile : StagedFile d' _ path blob) =>
          (⟨_, hbetween, hfile⟩ : StagedSince start d' path blob)
        refine ⟨_, d', _, rfl, ⟨hsteady.grown, hsteady.outside, fun s hs => ?_⟩, by omega, .provided ?_ hsince⟩
        · cases hs
          exact ⟨⟨_, hbetween, rfl⟩, hsince, files, hstaging⟩
        · rw [providingFault?, if_neg hblobs, hstaging]

/-! One compilation. -/

/-- What a compilation of sources to one module is about, on the disk at the start. -/
def combinedTask (start : Disk) (r : References) (sources : List String) (emitSymbols : Bool) : Task where
  unitName := CompileUnit.baseName sources
  sources := sources.map fun path => (path, start.read path)
  wantsSymbols := emitSymbols
  references := r.paths.map (fun path => (fileName? path, start.read path)) ++
    r.blobs.map fun blob => (fileName? blob.fileName, .ok blob.bytes)

/-- Staged files are read as the binaries that they hold, under the last parts of their names. -/
theorem StagedSince.read {blob : Blob} (h : StagedSince start d path blob) :
    (fileName? path, d.read path) = (fileName? blob.fileName, .ok blob.bytes) := by
  obtain ⟨name, hname, file, hfile, rfl, hfits, hentry⟩ := h
  have hplace := StagedReferences.isPlace_staged hname.isName (isName_of_fileName? hfile)
  have hlast : fileName? (ofNames ["tmp", name, file]) = some file := by
    rw [fileName?, components_ofNames hplace]
    rfl
  rw [hlast, hfile, read_ofNames hplace hfits hentry]

theorem read_staged {staged : List String} {blobs : List Blob} (h : List.Forall₂ (StagedSince start d) staged blobs) :
    staged.map (fun path => (fileName? path, d.read path)) =
      blobs.map fun blob => (fileName? blob.fileName, .ok blob.bytes) := by
  induction h with
  | nil => rfl
  | cons hfile _ ih => rw [List.map_cons, List.map_cons, hfile.read, ih]

theorem ofSources_combined (sources : List String) :
    CompileUnit.ofSources .combined sources = [⟨CompileUnit.baseName sources, sources⟩] := by
  simp [CompileUnit.ofSources, CompileUnit.nameAll, CompileUnit.freeName]

/-- What a compilation to one module comes to, by the disk at the start. -/
inductive ComesTo (toolchain : Toolchain) (start : Disk) (r : References) (sources : List String)
    (emitSymbols : Bool) : Except Fault (List Artifact) → Prop
  | noSources (hsources : sources.isEmpty = true) :
    ComesTo toolchain start r sources emitSymbols (.error (.invalidInput "no source files to compile"))
  | notProvided {fault : Fault} (hsources : sources.isEmpty = false) (hfault : providingFault? start r = some fault) :
    ComesTo toolchain start r sources emitSymbols (.error fault)
  | noDirectory {fault : IoFault} (hsources : sources.isEmpty = false) (hprovided : providingFault? start r = none)
    (hfault : start.temporaryFault? = some fault) : ComesTo toolchain start r sources emitSymbols (.error (.io fault))
  | called {call : ToolchainCall} {name : String} (hsources : sources.isEmpty = false)
    (hprovided : providingFault? start r = none) (hdirectory : start.temporaryFault? = none)
    (hinto : call.WritesInto name) (htask : call.task = combinedTask start r sources emitSymbols) :
    ComesTo toolchain start r sources emitSymbols
      ((call.unitResult toolchain).bind fun result => UnitResult.collect [result])

/-- With a reproducible toolchain it comes to one thing only. -/
theorem ComesTo.unique {emitSymbols : Bool} {x y : Except Fault (List Artifact)} (htoolchain : Reproducible toolchain)
    (hx : ComesTo toolchain start r sources emitSymbols x) (hy : ComesTo toolchain start r sources emitSymbols y) :
    x = y := by
  cases hx with
  | noSources hsources => cases hy <;> simp_all
  | notProvided hsources hfault => cases hy <;> simp_all
  | noDirectory hsources hprovided hfault => cases hy <;> simp_all
  | called hsources hprovided hdirectory hinto htask =>
    cases hy with
    | noSources hsources' => simp_all
    | notProvided _ hfault => simp_all
    | noDirectory _ _ hfault => simp_all
    | called _ _ _ hinto' htask' =>
      rw [ToolchainCall.unitResult_eq htoolchain hinto hinto' (htask.trans htask'.symm)]

/-- The call of a compilation is about what stood on the disk at the start. -/
theorem Steady.task_unitCall {staged : List String} {emitSymbols : Bool} (h : Steady start r c d)
    (hnew : NewTemporaries start bound paths) (hroom : d.temporaries < bound)
    (hnumber : name = temporaryName "patchwork-out-" d.temporaries) (hsources : ∀ path ∈ sources, path ∈ paths)
    (hreferences : ∀ path ∈ r.paths, path ∈ paths)
    (hstaged : List.Forall₂ (StagedSince start d) staged r.blobs) :
    (Compiler.unitCall d name (r.paths ++ staged) emitSymbols ⟨CompileUnit.baseName sources, sources⟩).task =
      combinedTask start r sources emitSymbols := by
  have hstart : "patchwork-out-" ∈ temporaryStarts := by decide
  have huses : d.UsesTemporary (d.withTemporary name) :=
    usesTemporary_of_touches hstart hnumber (touches_withTemporary rfl) (temporaries_withTemporary d name)
  have hmade := h.usesTemporary huses
  have hread : ∀ path ∈ paths, (d.withTemporary name).read path = start.read path := fun path hpath =>
    hmade.read hnew (by rw [temporaries_withTemporary]; exact hroom) hpath
  have hblobs := read_staged (hstaged.imp fun _ _ => StagedSince.usesTemporary huses)
  have hfiles : r.paths.map (fun path => (fileName? path, (d.withTemporary name).read path)) =
      r.paths.map fun path => (fileName? path, start.read path) :=
    List.map_congr_left fun path hpath => by rw [hread path (hreferences path hpath)]
  have htexts : sources.map (fun path => (path, (d.withTemporary name).read path)) =
      sources.map fun path => (path, start.read path) :=
    List.map_congr_left fun path hpath => by rw [hread path (hsources path hpath)]
  have hsymbols : (Compiler.invocation (ofNames ["tmp", name]) (r.paths ++ staged) emitSymbols
      ⟨CompileUnit.baseName sources, sources⟩).symbolsOutput.isSome = emitSymbols := by
    cases emitSymbols <;> rfl
  rw [Compiler.unitCall, ToolchainCall.task, combinedTask, hsymbols]
  simp only [Compiler.invocation, List.map_append, hblobs, hfiles, htexts]

/-- With the references provided, the sources are compiled in one more temporary directory. -/
theorem Steady.compileUnits {staged : List String} (emitSymbols : Bool) (h : Steady start r c d)
    (hnew : NewTemporaries start bound paths) (hroom : d.temporaries < bound) (htoolchain : Reproducible toolchain)
    (hsources : ∀ path ∈ sources, path ∈ paths) (hreferences : ∀ path ∈ r.paths, path ∈ paths)
    (hempty : sources.isEmpty = false) (hprovided : providingFault? start r = none)
    (hstaged : List.Forall₂ (StagedSince start d) staged r.blobs) :
    ∃ left calls result, Compiler.compileUnits toolchain d (r.paths ++ staged) emitSymbols
        (CompileUnit.ofSources .combined sources) = (left, calls, result) ∧
      d.UsesTemporary left ∧ ComesTo toolchain start r sources emitSymbols result := by
  have hstem := CompileUnit.isStem_baseName sources
  have hstart : "patchwork-out-" ∈ temporaryStarts := by decide
  have hout := h.isNew hnew hstart hroom
  have htmp := h.outside.temporaryFault?
  obtain ⟨left, calls, result, hunits, huses, hfailed, hcalled⟩ := Compiler.compileUnits_of_new
    (u := ⟨CompileUnit.baseName sources, sources⟩) (r.paths ++ staged) emitSymbols htoolchain hstem rfl hout
  rw [← ofSources_combined] at hunits
  refine ⟨left, calls, result, hunits, huses, ?_⟩
  cases hfault : start.temporaryFault? with
  | some fault =>
    rw [hfailed fault (htmp.trans hfault)]
    exact .noDirectory hempty hprovided hfault
  | none =>
    have hinto := Compiler.writesInto_unitCall (u := ⟨CompileUnit.baseName sources, sources⟩) (r.paths ++ staged)
      emitSymbols (isName_temporaryName hstart d.temporaries) hout.fits hstem (htmp.trans hfault)
    rw [hcalled (htmp.trans hfault)]
    exact .called hempty hprovided hfault hinto
      (h.task_unitCall hnew hroom rfl hsources hreferences hstaged)

/-- A compilation to one module keeps a compiler steady, and comes to what the disk at the start says. -/
theorem Steady.compile (emitSymbols : Bool) (h : Steady start r c d) (hnew : NewTemporaries start bound paths)
    (hroom : d.temporaries + 2 ≤ bound) (htoolchain : Reproducible toolchain)
    (hsources : ∀ path ∈ sources, path ∈ paths) (hreferences : ∀ path ∈ r.paths, path ∈ paths) :
    Steady start r (c.compile toolchain d sources r ⟨.combined, emitSymbols⟩).compiler
        (c.compile toolchain d sources r ⟨.combined, emitSymbols⟩).disk ∧
      (c.compile toolchain d sources r ⟨.combined, emitSymbols⟩).disk.temporaries ≤ d.temporaries + 2 ∧
      ComesTo toolchain start r sources emitSymbols
        (c.compile toolchain d sources r ⟨.combined, emitSymbols⟩).result := by
  cases hempty : sources.isEmpty with
  | true =>
    rw [Compiler.compile, if_pos hempty]
    exact ⟨h, Nat.le_add_right _ _, .noSources hempty⟩
  | false =>
    obtain ⟨after, provided, result, hprovide, hsteady, hcount, hprovides⟩ := h.provide hnew (by omega)
    cases hprovides with
    | failed hfault =>
      rw [Compiler.compile_of_provide_error hempty hprovide]
      exact ⟨hsteady, Nat.le_succ_of_le hcount, .notProvided hempty hfault⟩
    | provided hnone hstaged =>
      obtain ⟨left, calls, result, hunits, huses, hcomes⟩ := hsteady.compileUnits emitSymbols hnew (by omega)
        htoolchain hsources hreferences hempty hnone hstaged
      have hcompile : c.compile toolchain d sources r ⟨.combined, emitSymbols⟩ = _ :=
        Compiler.compile_of_provide hempty hprovide hunits
      rw [hcompile]
      have hleft := hsteady.usesTemporary huses
      have hmany : left.temporaries ≤ d.temporaries + 2 :=
        Nat.le_trans huses.le_succ (Nat.succ_le_succ hcount)
      split
      · exact ⟨hleft, hmany, hcomes⟩
      · obtain ⟨hcleaned, htemporaries, _⟩ := hleft.cleanup
        exact ⟨hcleaned, Nat.le_trans (Nat.le_of_eq htemporaries) hmany, hcomes⟩

end PluginHost
