import PluginHost.Proofs.Compile.Delivery
import PluginHost.Proofs.Compile.StagingArea
/-!
Staged binaries over the life of a compiler.

A compiler compiles and cleans up in any order, and between its steps others change the disk wherever they
like but in directories for staged binaries. Main statement: what a compiler says it has staged is what such
directories there are besides those of the start, there is at most one, and every call of the toolchain finds
its references there.
-/

namespace PluginHost

open Entry PluginHost.Path Disk

variable {start d d' : Disk} {name path : String} {c : Compiler} {reuse : Bool} {s : StagedReferences}
  {r references : References} {given : List References} {toolchain : Toolchain}

/-- Something is at a place for staged binaries where nothing was at the start. -/
def StagedAt (start d : Disk) (path : String) : Prop :=
  ∃ name, IsStagingName name ∧ path = Path.join temporaryRoot name ∧
    start.entryAt? ["tmp", name] = none ∧ (d.entryAt? ["tmp", name]).isSome = true

/-- A file directly in a directory, under the last part of the name of a binary and with its bytes. -/
structure HoldsBlob (d : Disk) (directory path : String) (blob : Blob) : Prop where
  child : ∃ file, fileName? blob.fileName = some file ∧
    components path = components directory ++ [.normal file]
  bytes : d.read path = .ok blob.bytes

/-- The digests of some references tell their binaries apart. -/
def DigestsDiffer (given : List References) : Prop :=
  ∀ r ∈ given, ∀ r' ∈ given, r.blobDigest = r'.blobDigest → r.blobs = r'.blobs

instance (given : List References) : Decidable (DigestsDiffer given) :=
  inferInstanceAs (Decidable (∀ r ∈ given, ∀ r' ∈ given, r.blobDigest = r'.blobDigest → r.blobs = r'.blobs))

theorem DigestsDiffer.tail (h : DigestsDiffer (references :: given)) : DigestsDiffer given :=
  fun r hr r' hr' => h r (List.mem_cons_of_mem _ hr) r' (List.mem_cons_of_mem _ hr')

namespace ToolchainCall

/-- What a call is handed: the references on disk, and then a file for each binary in memory, all different and
    in the one directory for staged binaries that was not there at the start. -/
def FindsReferences (start : Disk) (references : References) (call : ToolchainCall) : Prop :=
  ∃ staged directory, call.invocation.references = references.paths ++ staged ∧ staged.Nodup ∧
    List.Forall₂ (HoldsBlob call.disk directory) staged references.blobs ∧
    (references.blobs ≠ [] → ∀ path, StagedAt start call.disk path ↔ path = directory)

/-- The toolchain leaves directories for staged binaries alone. -/
def Undisturbing (toolchain : Toolchain) (call : ToolchainCall) : Prop :=
  call.disk.SameStaging (call.left toolchain)

end ToolchainCall

/-- What a compiler has staged, among the directories for staged binaries: nothing, and they are as at the
    start, or the binaries of some references that it was given. -/
inductive StagingArea (start : Disk) (given : List References) : Option StagedReferences → Disk → Prop
  | empty {d : Disk} (hsame : start.SameStaging d) : StagingArea start given none d
  | staged {d : Disk} {s : StagedReferences} {r : References} {name : String} (hgiven : r ∈ given)
      (hstaging : Staging start d name s r) : StagingArea start given (some s) d

theorem not_stagedAt (h : start.SameStaging d) : ¬ StagedAt start d path := by
  rintro ⟨name, hname, _, habsent, hpresent⟩
  rw [h name hname, habsent] at hpresent
  cases hpresent

theorem Staging.stagedAt_iff (h : Staging start d name s r) : StagedAt start d path ↔ path = s.directory := by
  have hjoin := join_temporaryRoot h.isName
  constructor
  · rintro ⟨other, hother, rfl, habsent, hpresent⟩
    by_cases heq : other = name
    · rw [heq, hjoin, h.directory]
    · rw [h.others other hother heq, habsent] at hpresent
      cases hpresent
  · rintro rfl
    obtain ⟨entries, hpresent⟩ := h.present
    exact ⟨name, h.isStagingName, h.directory.trans hjoin.symm, h.absent, Option.isSome_of_eq_some hpresent⟩

/-- The files of staged binaries hold them. -/
theorem Staging.holdsBlobs (h : Staging start d name s r) :
    List.Forall₂ (HoldsBlob d s.directory) s.paths r.blobs := by
  refine h.files.imp ?_
  rintro path blob ⟨file, hfile, rfl, hfits, hentry⟩
  have hplace := StagedReferences.isPlace_staged h.isName (isName_of_fileName? hfile)
  refine ⟨⟨file, hfile, ?_⟩, read_ofNames hplace hfits hentry⟩
  rw [h.directory, components_ofNames hplace, components_ofNames (isPlace_temporary h.isName)]
  rfl

namespace StagingArea

theorem sameStaging {staged : Option StagedReferences} (h : StagingArea start given staged d)
    (hsame : d.SameStaging d') : StagingArea start given staged d' := by
  cases h with
  | empty hstart => exact .empty (hstart.trans hsame)
  | staged hgiven hstaging => exact .staged hgiven (hstaging.sameStaging hsame)

theorem cons {staged : Option StagedReferences} (h : StagingArea start given staged d) (r : References) :
    StagingArea start (r :: given) staged d := by
  cases h with
  | empty hstart => exact .empty hstart
  | staged hgiven hstaging => exact .staged (List.mem_cons_of_mem _ hgiven) hstaging

theorem stagedAt_iff {staged : Option StagedReferences} (h : StagingArea start given staged d) :
    StagedAt start d path ↔ staged.map (·.directory) = some path := by
  cases h with
  | empty hstart => exact ⟨fun h => absurd h (not_stagedAt hstart), fun h => by cases h⟩
  | staged _ hstaging =>
    rw [hstaging.stagedAt_iff, Option.map_some, Option.some.injEq]
    exact eq_comm

theorem isDirectory (h : StagingArea start given (some s) d) : d.isDirectory s.directory = true := by
  cases h with
  | staged _ hstaging =>
    obtain ⟨entries, hpresent⟩ := hstaging.present
    rw [hstaging.directory]
    exact isDirectory_ofNames (isPlace_temporary hstaging.isName) hstaging.fits hpresent

end StagingArea

namespace Compiler

theorem cleanup_sameStaging (h : StagingArea start given c.staged d) : start.SameStaging (c.cleanup d).2 := by
  obtain ⟨reuse, staged⟩ := c
  cases h with
  | empty hstart => exact hstart
  | staged _ hstaging => exact hstaging.removeTree

/-- What providing references comes to: they are all on disk, they are staged, or staging has failed and nothing
    is staged any more. -/
inductive Provides (start : Disk) (given : List References) (references : References) (c : Compiler) :
    Compiler × Disk × Except Fault (List String) → Prop
  | onDisk {d : Disk} (hblobs : references.blobs = []) (harea : StagingArea start given c.staged d) :
      Provides start given references c (c, d, .ok references.paths)
  | staged {d : Disk} {s : StagedReferences} {name : String} (hstaging : Staging start d name s references) :
      Provides start given references c
        ({ c with staged := some s }, d, .ok (references.paths ++ s.paths))
  | failed {d : Disk} {fault : Fault} (hsame : start.SameStaging d) :
      Provides start given references c ({ c with staged := none }, d, .error fault)

theorem provides_of_stagingArea (h : StagingArea start given c.staged d)
    (hdigests : DigestsDiffer (references :: given)) :
    Provides start given references c (c.provide d references) := by
  rw [provide]
  split
  · next hblobs => exact .onDisk (List.isEmpty_iff.mp hblobs) h
  · split
    · next hreused =>
      obtain ⟨reuse, staged⟩ := c
      cases h with
      | empty _ => cases hreused
      | @staged _ s r name hgiven hstaging =>
        simp only [hasStaged, Option.any_some, Bool.and_eq_true, decide_eq_true_eq] at hreused
        -- Equal digests come from equal binaries, so what is staged is what is asked for.
        have hblobs := hdigests r (List.mem_cons_of_mem _ hgiven) references List.mem_cons_self
          (hstaging.digest.symm.trans hreused.1)
        exact .staged (hstaging.of_blobs_eq hblobs)
    · have hsame := cleanup_sameStaging h
      rcases hstage : StagedReferences.stage (c.cleanup d).2 references with ⟨after, fault | s⟩
      · have hfailed := StagedReferences.stage_eq_error (congrArg Prod.snd hstage)
        rw [hstage] at hfailed
        simp only [hstage]
        exact .failed (hsame.trans hfailed)
      · obtain ⟨name, hstaging⟩ := StagedReferences.stage_eq_ok (congrArg Prod.snd hstage)
        rw [hstage] at hstaging
        simp only [hstage]
        exact .staged (hstaging.of_sameStaging hsame)

/-- Calls that leave directories for staged binaries alone all find them as they were. -/
theorem callAll_sameStaging {invocations : List Invocation}
    (h : ∀ call ∈ (callAll toolchain d invocations).2.1, call.Undisturbing toolchain) :
    d.SameStaging (callAll toolchain d invocations).1 ∧
      ∀ call ∈ (callAll toolchain d invocations).2.1,
        call.invocation ∈ invocations ∧ d.SameStaging call.disk := by
  induction invocations generalizing d with
  | nil => exact ⟨SameStaging.refl d, List.forall_mem_nil _⟩
  | cons i rest ih =>
    rw [callAll] at h ⊢
    have hfirst : ∀ after answer, toolchain d i = (after, answer) →
        ToolchainCall.Undisturbing toolchain ⟨i, d⟩ → d.SameStaging after := by
      intro after answer hanswer hundisturbing
      rw [ToolchainCall.Undisturbing, ToolchainCall.left, hanswer] at hundisturbing
      exact hundisturbing
    have honly : ∀ call ∈ [(⟨i, d⟩ : ToolchainCall)],
        call.invocation ∈ i :: rest ∧ d.SameStaging call.disk :=
      List.forall_mem_singleton.mpr ⟨List.mem_cons_self, SameStaging.refl d⟩
    rcases hanswer : toolchain d i with ⟨after, fault | answer⟩
    · simp only [hanswer] at h ⊢
      exact ⟨hfirst _ _ hanswer (h _ List.mem_cons_self), honly⟩
    · simp only [hanswer] at h ⊢
      cases hresult : unitResult after i answer with
      | error fault =>
        simp only [hresult] at h ⊢
        exact ⟨hfirst _ _ hanswer (h _ List.mem_cons_self), honly⟩
      | ok result =>
        simp only [hresult] at h ⊢
        rw [List.forall_mem_cons] at h
        have hafter := hfirst _ _ hanswer h.1
        obtain ⟨hend, hcalls⟩ := ih h.2
        refine ⟨hafter.trans hend, List.forall_mem_cons.mpr ⟨honly _ List.mem_cons_self, fun call hcall => ?_⟩⟩
        obtain ⟨hinvocation, hdisk⟩ := hcalls call hcall
        exact ⟨List.mem_cons_of_mem _ hinvocation, hafter.trans hdisk⟩

/-- A directory for outputs is none for staged binaries. -/
theorem makeTemporary_out {directory : String} (h : d.makeTemporary "patchwork-out-" = .ok (d', directory)) :
    d.SameStaging d' ∧ (∀ after : Disk, after.SameStaging (after.removeTree directory)) := by
  obtain ⟨name, hprefix, rfl, hmakes⟩ := makeTemporary_eq_ok (by decide) (by decide) h
  have hapart : ∀ other, IsStagingName other → Apart ["tmp", name] ["tmp", other] := by
    -- No name starts in both ways.
    refine fun other hother => apart_temporary ?_
    rintro rfl
    exact (List.prefix_or_prefix_of_prefix hprefix hother).elim (by decide) (by decide)
  exact ⟨fun other hother => hmakes.others _ (hapart other hother), fun after other hother =>
    entryAt?_removeTree_of_apart (isPlace_temporary hmakes.isName) (hapart other hother)⟩

theorem compileUnits_sameStaging {paths : List String} {emitSymbols : Bool} {units : List CompileUnit}
    {left : Disk} {calls : List ToolchainCall} {result : Except Fault (List Artifact)}
    (hunits : compileUnits toolchain d paths emitSymbols units = (left, calls, result))
    (h : ∀ call ∈ calls, call.Undisturbing toolchain) :
    d.SameStaging left ∧ ∀ call ∈ calls, call.invocation.references = paths ∧ d.SameStaging call.disk := by
  unfold compileUnits at hunits
  cases hmake : d.makeTemporary "patchwork-out-" with
  | error fault =>
    rw [hmake] at hunits
    cases hunits
    exact ⟨SameStaging.refl d, List.forall_mem_nil _⟩
  | ok made =>
    obtain ⟨made, directory⟩ := made
    obtain ⟨hmade, hremoved⟩ := makeTemporary_out hmake
    rw [hmake] at hunits
    cases hunits
    obtain ⟨hend, hcalls⟩ := callAll_sameStaging h
    refine ⟨(hmade.trans hend).trans (hremoved _), fun call hcall => ?_⟩
    obtain ⟨hinvocation, hdisk⟩ := hcalls call hcall
    obtain ⟨u, _, hu⟩ := List.mem_map.mp hinvocation
    exact ⟨by rw [← hu, invocation], hmade.trans hdisk⟩

theorem Provides.stagingArea {p : Compiler × Disk × Except Fault (List String)}
    (h : Provides start given references c p) : StagingArea start (references :: given) p.1.staged p.2.1 := by
  cases h with
  | onDisk _ harea => exact harea.cons references
  | staged hstaging => exact .staged List.mem_cons_self hstaging
  | failed hsame => exact .empty hsame

/-- Calls on a disk with the directories for staged binaries as they were provided find their references. -/
theorem Provides.findsReferences {after : Compiler} {provided : Disk} {paths : List String}
    {call : ToolchainCall} (h : Provides start given references c (after, provided, .ok paths))
    (hpaths : call.invocation.references = paths) (hsame : provided.SameStaging call.disk) :
    call.FindsReferences start references := by
  cases h with
  | onDisk hblobs _ =>
    rw [ToolchainCall.FindsReferences, hpaths, hblobs]
    exact ⟨[], "", (List.append_nil _).symm, List.nodup_nil, .nil, fun hne => absurd rfl hne⟩
  | @staged _ s _ hstaging =>
    have hstaging := hstaging.sameStaging hsame
    exact ⟨s.paths, s.directory, hpaths, hstaging.nodup, hstaging.holdsBlobs,
      fun _ path => hstaging.stagedAt_iff⟩

variable {sources : List String} {options : CompileOptions}

theorem Provides.reuseStaged {p : Compiler × Disk × Except Fault (List String)}
    (h : Provides start given references c p) : p.1.reuseStaged = c.reuseStaged := by
  cases h <;> rfl

theorem Provides.staged_of_error {after : Compiler} {provided : Disk} {fault : Fault}
    (h : Provides start given references c (after, provided, .error fault)) : after.staged = none := by
  cases h
  rfl

/-- What one compilation does to what is staged. -/
structure CompilesStaged (start : Disk) (given : List References) (references : References) (c : Compiler)
    (done : Compilation) : Prop where
  area : StagingArea start (references :: given) done.compiler.staged done.disk
  calls : ∀ call ∈ done.calls, call.FindsReferences start references
  reuse : done.compiler.reuseStaged = c.reuseStaged
  once : c.reuseStaged = false → c.staged = none → done.compiler.staged = none

theorem compile_staged (h : StagingArea start given c.staged d) (hdigests : DigestsDiffer (references :: given))
    (hundisturbing : ∀ call ∈ (c.compile toolchain d sources references options).calls,
      call.Undisturbing toolchain) :
    CompilesStaged start given references c (c.compile toolchain d sources references options) := by
  have hprovides := provides_of_stagingArea h hdigests
  cases hsources : sources.isEmpty with
  | true =>
    rw [compile, if_pos hsources]
    exact ⟨h.cons references, List.forall_mem_nil _, rfl, fun _ hnone => hnone⟩
  | false =>
    rcases hprovide : c.provide d references with ⟨after, provided, fault | paths⟩
    · rw [hprovide] at hprovides
      rw [compile_of_provide_error hsources hprovide]
      exact ⟨hprovides.stagingArea, List.forall_mem_nil _, hprovides.reuseStaged,
        fun _ _ => hprovides.staged_of_error⟩
    · rw [hprovide] at hprovides
      rcases hunits : compileUnits toolchain provided paths options.emitDebugSymbols
        (CompileUnit.ofSources options.mode sources) with ⟨left, calls, result⟩
      have hreuse : after.reuseStaged = c.reuseStaged := hprovides.reuseStaged
      rw [compile_of_provide hsources hprovide hunits] at hundisturbing ⊢
      have hcalls : ∀ call ∈ calls, call.Undisturbing toolchain := by
        split at hundisturbing <;> exact hundisturbing
      obtain ⟨hend, hcalls⟩ := compileUnits_sameStaging hunits hcalls
      have harea := hprovides.stagingArea.sameStaging hend
      have hfound : ∀ call ∈ calls, call.FindsReferences start references := fun call hcall =>
        hprovides.findsReferences (hcalls call hcall).1 (hcalls call hcall).2
      -- The calls are over: what is staged stays, or is removed.
      split
      · next hkeep =>
        refine ⟨harea, hfound, hreuse, fun hnot => ?_⟩
        rw [hreuse, hnot] at hkeep
        cases hkeep
      · exact ⟨.empty (cleanup_sameStaging harea), hfound, hreuse, fun _ _ => rfl⟩

/-- How a compiler that stages for reuse or not can have come about, and the disk with it, from a disk at the
    start: it compiles and cleans up, and the disk changes elsewhere. `given` are the references of its
    compilations, latest first. -/
inductive Reached (start : Disk) (reuse : Bool) : List References → Compiler → Disk → Prop
  | new : Reached start reuse [] (ofReuse reuse) start
  | elsewhere {given : List References} {c : Compiler} {d d' : Disk} (h : Reached start reuse given c d)
      (hsame : d.SameStaging d') : Reached start reuse given c d'
  | cleanup {given : List References} {c : Compiler} {d : Disk} (h : Reached start reuse given c d) :
      Reached start reuse given (c.cleanup d).1 (c.cleanup d).2
  | compile {given : List References} {c : Compiler} {d : Disk} (h : Reached start reuse given c d)
      (toolchain : Toolchain) (sources : List String) (references : References) (options : CompileOptions)
      (hundisturbing : ∀ call ∈ (c.compile toolchain d sources references options).calls,
        call.Undisturbing toolchain) :
      Reached start reuse (references :: given) (c.compile toolchain d sources references options).compiler
        (c.compile toolchain d sources references options).disk

/-- What holds between the steps of a compiler. -/
theorem Reached.invariant (h : Reached start reuse given c d) (hdigests : DigestsDiffer given) :
    StagingArea start given c.staged d ∧ c.reuseStaged = reuse ∧ (reuse = false → c.staged = none) := by
  induction h with
  | new => exact ⟨.empty (SameStaging.refl start), rfl, fun _ => rfl⟩
  | elsewhere _ hsame ih =>
    obtain ⟨harea, hreuse, honce⟩ := ih hdigests
    exact ⟨harea.sameStaging hsame, hreuse, honce⟩
  | cleanup _ ih =>
    obtain ⟨harea, hreuse, _⟩ := ih hdigests
    exact ⟨.empty (cleanup_sameStaging harea), hreuse, fun _ => rfl⟩
  | compile _ toolchain sources references options hundisturbing ih =>
    obtain ⟨harea, hreuse, honce⟩ := ih hdigests.tail
    have hcompiles := compile_staged harea hdigests hundisturbing
    exact ⟨hcompiles.area, hcompiles.reuse.trans hreuse,
      fun hnot => hcompiles.once (hreuse.trans hnot) (honce hnot)⟩

/-- At any time there is at most one directory for staged binaries besides those of the start: the one that the
    compiler says it has. Every call of the next compilation is handed the references on disk and then one
    file for each binary, in order, all in the one such directory that there is then. No such directory is
    left by a compilation whose staging fails, by a cleanup, and by any compilation of a compiler that does
    not keep what it stages. This is so if the digests of all references so far differ, and if no toolchain
    and nobody else touches directories for staged binaries. -/
theorem Reached.staging_accounted (hreached : Reached start reuse given c d) (toolchain : Toolchain)
    (sources : List String) (references : References) (options : CompileOptions)
    (hdigests : DigestsDiffer (references :: given))
    (hundisturbing : ∀ call ∈ (c.compile toolchain d sources references options).calls,
      call.Undisturbing toolchain) :
    let done := c.compile toolchain d sources references options
    (∀ path, StagedAt start d path ↔ c.staged.map (·.directory) = some path) ∧
    (∀ s, c.staged = some s → d.isDirectory s.directory = true) ∧
    (∀ call ∈ done.calls, call.FindsReferences start references) ∧
    (∀ path, StagedAt start done.disk path ↔ done.compiler.staged.map (·.directory) = some path) ∧
    (sources ≠ [] → ∀ fault, (c.provide d references).2.2 = .error fault →
      done.result = .error fault ∧ ∀ path, ¬ StagedAt start done.disk path) ∧
    (reuse = false → ∀ path, ¬ StagedAt start done.disk path) ∧
    ∀ path, ¬ StagedAt start (c.cleanup d).2 path := by
  intro done
  obtain ⟨harea, hreuse, honce⟩ := hreached.invariant hdigests.tail
  have hcompiles := compile_staged harea hdigests hundisturbing
  have hdone : ∀ path, StagedAt start done.disk path ↔ done.compiler.staged.map (·.directory) = some path :=
    fun _ => hcompiles.area.stagedAt_iff
  have hnothing : done.compiler.staged = none → ∀ path, ¬ StagedAt start done.disk path := by
    intro hnone path hat
    rw [hdone, hnone] at hat
    cases hat
  refine ⟨fun _ => harea.stagedAt_iff, fun s hs => (hs ▸ harea).isDirectory, hcompiles.calls, hdone, ?_, ?_,
    fun _ => not_stagedAt (cleanup_sameStaging harea)⟩
  · intro hsources fault hfault
    have hprovides := provides_of_stagingArea harea hdigests
    rcases hprovide : c.provide d references with ⟨after, provided, found | paths⟩
    · rw [hprovide] at hfault hprovides
      cases hfault
      have hfailed : done = ⟨after, provided, [], .error fault⟩ :=
        compile_of_provide_error (by simpa using hsources) hprovide
      refine ⟨by rw [hfailed], hnothing ?_⟩
      rw [hfailed]
      exact hprovides.staged_of_error
    · rw [hprovide] at hfault
      cases hfault
  · exact fun hnot => hnothing (hcompiles.once (hreuse.trans hnot) (honce hnot))

end Compiler

namespace Restaging

open Compiler

def disk : Disk := ⟨[("tmp", .directory [])], [], 0⟩
def idle : Toolchain := fun disk _ => (disk, .ok ⟨false, []⟩)
def older : References := ⟨[], [⟨"game.pwmod", [1]⟩]⟩
def newer : References := ⟨["host.pwmod"], [⟨"lib/game.pwmod", [2]⟩]⟩
def first : Compilation := (ofReuse true).compile idle disk ["a.cs"] older .forAnalysis
def second : Compilation := first.compiler.compile idle first.disk ["a.cs"] newer .forAnalysis

/-- A binary that changes between two compilations is staged anew, in another directory. -/
theorem newer_staged :
    second.calls.map (·.invocation.references) = [["host.pwmod", "/tmp/patchwork-refs-2/game.pwmod"]] ∧
      (∀ call ∈ second.calls, call.FindsReferences disk newer) ∧
      (∀ path, StagedAt disk first.disk path ↔ some "/tmp/patchwork-refs-0" = some path) ∧
      ∀ path, StagedAt disk second.disk path ↔ some "/tmp/patchwork-refs-2" = some path := by
  have hreached : Reached disk true [older] first.compiler first.disk :=
    .compile .new idle ["a.cs"] older .forAnalysis fun call _ => SameStaging.refl call.disk
  have hdigests : DigestsDiffer [newer, older] := by decide +kernel
  obtain ⟨hbetween, _, hcalls, hafter, _⟩ := hreached.staging_accounted idle ["a.cs"] newer .forAnalysis
    hdigests fun call _ => SameStaging.refl call.disk
  have hfirst : first.compiler.staged.map (·.directory) = some "/tmp/patchwork-refs-0" := by decide +kernel
  have hsecond : second.calls.map (·.invocation.references) =
      [["host.pwmod", "/tmp/patchwork-refs-2/game.pwmod"]] ∧
      second.compiler.staged.map (·.directory) = some "/tmp/patchwork-refs-2" := by decide +kernel
  rw [hfirst] at hbetween
  rw [← second, hsecond.2] at hafter
  exact ⟨hsecond.1, hcalls, hbetween, hafter⟩

end Restaging

end PluginHost
