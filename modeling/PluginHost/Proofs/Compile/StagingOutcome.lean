import PluginHost.Proofs.Compile.Temporaries
import PluginHost.Proofs.Text.Utf8
/-!
What staging comes to does not depend on the directory.

Binaries are staged in a new directory under the last parts of their names, so whether that succeeds and how it
fails is told from the names alone, once the directory is there. Main statement: `stage_of_new`.
-/

namespace PluginHost

open Entry PluginHost.Path Disk

variable {d d' : Disk} {name file : String} {taken files : List String} {blob : Blob} {blobs : List Blob}

/-- Why no file of the name can be written in a directory, if none can. -/
def fileFault? (file : String) : Option IoFault :=
  if file.toList.contains '\x00' then some .nulInPath
  else if (Text.utf8 file.toList).length > maxNameBytes then some .nameTooLong
  else none

/-- The name that a binary is staged under, where some names are taken. -/
def stagedName (taken : List String) (blob : Blob) : Except Fault String :=
  let quoted := String.ofList (Text.quoted blob.fileName.toList)
  match fileName? blob.fileName with
  | none => .error (.stagingFailed ("invalid file name " ++ quoted))
  | some file =>
    if file ∈ taken then .error (.stagingFailed ("duplicate in-memory reference " ++ quoted))
    else
      match fileFault? file with
      | some fault => .error (.stagingFailed fault.message)
      | none => .ok file

/-- The names that binaries are staged under. -/
def stagedNames (taken : List String) : List Blob → Except Fault (List String)
  | [] => .ok []
  | blob :: rest => do
    let file ← stagedName taken blob
    let files ← stagedNames (file :: taken) rest
    return file :: files

theorem toList_ofNames_staged (name file : String) :
    (ofNames ["tmp", name, file]).toList = (ofNames ["tmp", name]).toList ++ '/' :: file.toList :=
  toList_ofNames_append ["tmp", name] file

theorem no_nul_staged (hfits : Fits ["tmp", name]) (file : String) :
    (ofNames ["tmp", name, file]).toList.contains '\x00' = file.toList.contains '\x00' := by
  have hname := hfits.no_nul
  rw [Bool.eq_iff_iff, toList_ofNames_staged]
  simp only [List.contains_iff_mem, List.mem_append, List.mem_cons] at hname ⊢
  simp only [List.contains_eq_mem, decide_eq_false_iff_not] at hname
  simp [hname]

/-- A path is too long only if the name of the file is too long on its own. -/
theorem short_staged (hfits : Fits ["tmp", name]) (hfile : (Text.utf8 file.toList).length ≤ maxNameBytes) :
    (Text.utf8 (ofNames ["tmp", name, file]).toList).length ≤ maxPathBytes := by
  have hname := hfits.names name (by simp)
  have hdirectory : (ofNames ["tmp", name]).toList = "/tmp/".toList ++ name.toList := by
    rw [ofNames, String.toList_ofList]
    simp
  have hlengths : (Text.utf8 ("/tmp/".toList)).length = 5 ∧ (Text.utf8 ['/']).length = 1 := by decide
  rw [toList_ofNames_staged, hdirectory, ← List.singleton_append, Text.utf8_append, Text.utf8_append,
    Text.utf8_append]
  simp only [List.length_append, hlengths.1, hlengths.2]
  simp only [maxNameBytes, maxPathBytes] at hname hfile ⊢
  omega

theorem fileFault?_eq_none_iff : fileFault? file = none ↔
    file.toList.contains '\x00' = false ∧ (Text.utf8 file.toList).length ≤ maxNameBytes := by
  rw [fileFault?]
  split
  · next hnul => exact ⟨nofun, fun h => by rw [h.1] at hnul; cases hnul⟩
  · next hnul =>
    split
    · next hlong => exact ⟨nofun, fun h => absurd h.2 (Nat.not_le.mpr hlong)⟩
    · next hshort => exact ⟨fun _ => ⟨by simpa using hnul, Nat.not_lt.mp hshort⟩, fun _ => rfl⟩

theorem fits_staged (hfits : Fits ["tmp", name]) (hfile : fileFault? file = none) : Fits ["tmp", name, file] := by
  obtain ⟨hnul, hshort⟩ := fileFault?_eq_none_iff.mp hfile
  refine ⟨(no_nul_staged hfits file).trans hnul, short_staged hfits hshort, ?_⟩
  have hnames := hfits.names
  simp only [List.forall_mem_cons] at hnames ⊢
  exact ⟨hnames.1, hnames.2.1, hshort, List.forall_mem_nil _⟩

/-- Where the path of a staged file leads, if it leads anywhere, depends only on the name of the file. -/
theorem place_staged (hname : IsName name) (hfile : IsName file) (hfits : Fits ["tmp", name])
    (hdirectory : d.HasDirectory ["tmp", name]) :
    d.place (ofNames ["tmp", name, file]) =
      match fileFault? file with
      | some fault => .error fault
      | none => .ok ["tmp", name, file] := by
  have hplace : IsPlace (["tmp", name] ++ [file]) := StagedReferences.isPlace_staged hname hfile
  have hconcat := place_ofNames_concat (d := d) hplace
  rw [walk_to_directory (isPlace_temporary hname) hfits hdirectory, Except.bind, step_eq,
    kindAt?_eq_directory_iff.mpr hdirectory, onward_name_eq hfile] at hconcat
  have hnul := no_nul_staged hfits file
  refine hconcat.trans ?_
  rw [List.cons_append, List.cons_append, List.nil_append, hnul, fileFault?]
  split
  · rfl
  · by_cases hlong : (Text.utf8 file.toList).length > maxNameBytes
    · rw [if_pos hlong, if_pos hlong]
      split <;> rfl
    · rw [if_neg hlong, if_neg hlong, if_neg (Nat.not_lt.mpr (short_staged hfits (Nat.not_lt.mp hlong)))]

namespace StagedReferences

/-- What is in a directory for staged binaries, by the names of its files. -/
structure Holds (d : Disk) (name : String) (taken : List String) : Prop where
  directory : d.HasDirectory ["tmp", name]
  taken_iff : ∀ {file}, IsName file → ((d.entryAt? ["tmp", name, file]).isSome = true ↔ file ∈ taken)
  fault_none : ∀ file ∈ taken, fileFault? file = none

theorem contains_staged (hname : IsName name) (hfits : Fits ["tmp", name]) (hholds : Holds d name taken)
    (hfile : IsName file) : d.contains (ofNames ["tmp", name, file]) = decide (file ∈ taken) := by
  cases hfault : fileFault? file with
  | none =>
    rw [contains_ofNames (isPlace_staged hname hfile) (fits_staged hfits hfault), Bool.eq_iff_iff,
      hholds.taken_iff hfile, decide_eq_true_iff]
  | some fault =>
    have hfree : file ∉ taken := fun hmem => by
      rw [hholds.fault_none file hmem] at hfault
      cases hfault
    rw [decide_eq_false hfree, contains, lookup, place_staged hname hfile hfits hholds.directory, hfault]
    rfl

theorem write_staged (bytes : List UInt8) (hname : IsName name) (hfits : Fits ["tmp", name])
    (hholds : Holds d name taken) (hfile : IsName file) (hfree : file ∉ taken) :
    d.write (ofNames ["tmp", name, file]) bytes =
      match fileFault? file with
      | some fault => .error fault
      | none => .ok (d.modify (put (.file bytes) ["tmp", name, file])) := by
  have habsent : d.entryAt? ["tmp", name, file] = none := by
    rw [← Option.not_isSome_iff_eq_none, hholds.taken_iff hfile]
    exact hfree
  rw [write, place_staged hname hfile hfits hholds.directory]
  cases fileFault? file with
  | some fault => rfl
  | none =>
    simp only [bind, Except.bind, habsent, namesDirectory_ofNames (isPlace_staged hname hfile)]
    rfl

theorem stageBlob_eq (hname : IsName name) (hfits : Fits ["tmp", name]) (hholds : Holds d name taken) :
    stageBlob (ofNames ["tmp", name]) d blob = (stagedName taken blob).map fun file =>
      (d.modify (put (.file blob.bytes) ["tmp", name, file]), ofNames ["tmp", name, file]) := by
  rw [stageBlob, stagedName]
  cases hfile : fileName? blob.fileName with
  | none => rfl
  | some file =>
    have hisName := isName_of_fileName? hfile
    have hjoin : Path.join (ofNames ["tmp", name]) file = ofNames ["tmp", name, file] :=
      join_ofNames (isPlace_temporary hname) hisName
    simp only [hjoin, contains_staged hname hfits hholds hisName, decide_eq_true_eq]
    by_cases htaken : file ∈ taken
    · rw [if_pos htaken, if_pos htaken]
      rfl
    · rw [if_neg htaken, if_neg htaken, write_staged _ hname hfits hholds hisName htaken]
      cases fileFault? file <;> rfl

theorem holds_nil (h : d.entryAt? ["tmp", name] = some (.directory [])) : Holds d name [] := by
  refine ⟨⟨[], h⟩, fun {file} _ => ?_, List.forall_mem_nil _⟩
  have hbelow : d.entryAt? ["tmp", name, file] = (d.entryAt? ["tmp", name]).bind (find? [file]) :=
    find?_append ["tmp", name] [file] _
  rw [hbelow, h, Option.bind_some]
  simp [find?, Assoc.get?]

/-- A file more in the directory. -/
theorem Holds.put {bytes : List UInt8} (hholds : Holds d name taken) (hfault : fileFault? file = none) :
    Holds (d.modify (Entry.put (.file bytes) ["tmp", name, file])) name (file :: taken) := by
  obtain ⟨entries, hentries⟩ := hholds.directory
  have hself : (d.modify (Entry.put (.file bytes) ["tmp", name, file])).entryAt? ["tmp", name, file] =
      some (.file bytes) := entryAt?_put_self (List.cons_ne_nil _ _) hentries
  refine ⟨hasDirectory_above hself ⟨[file], rfl⟩ (by simp), fun {other} hother => ?_,
    List.forall_mem_cons.mpr ⟨hfault, hholds.fault_none⟩⟩
  by_cases heq : other = file
  · subst heq
    rw [hself]
    simp
  · have hapart : Apart ["tmp", name, file] ["tmp", name, other] :=
      ((apart_of_ne (Ne.symm heq) [] []).cons name).cons "tmp"
    rw [entryAt?_put_of_apart hapart, hholds.taken_iff hother, List.mem_cons]
    exact ⟨Or.inr, fun h => h.resolve_left heq⟩

theorem fault_none_of_stagedName (h : stagedName taken blob = .ok file) : fileFault? file = none := by
  rw [stagedName] at h
  split at h
  · cases h
  · split at h
    · cases h
    · split at h
      · cases h
      · next hnone =>
        cases h
        exact hnone

/-- Binaries are staged under their names, whatever the directory. -/
theorem stageBlobs_eq (blobs : List Blob) (hname : IsName name) (hfits : Fits ["tmp", name])
    (hholds : Holds d name taken) :
    ∃ d', Touches (· = name) d d' ∧ d'.temporaries = d.temporaries ∧
      stageBlobs (ofNames ["tmp", name]) d blobs = (stagedNames taken blobs).map fun files =>
        (d', files.map fun file => ofNames ["tmp", name, file]) := by
  induction blobs generalizing d taken with
  | nil => exact ⟨d, .refl _ d, rfl, rfl⟩
  | cons blob rest ih =>
    rw [stageBlobs, stagedNames, stageBlob_eq hname hfits hholds]
    cases hfile : stagedName taken blob with
    | error fault => exact ⟨d, .refl _ d, rfl, rfl⟩
    | ok file =>
      have hmore : Holds (d.modify (put (.file blob.bytes) ["tmp", name, file])) name (file :: taken) :=
        hholds.put (fault_none_of_stagedName hfile)
      obtain ⟨d', htouches, htemporaries, hrest⟩ := ih hmore
      have hput : Touches (· = name) d (d.modify (put (.file blob.bytes) ["tmp", name, file])) :=
        touches_put rfl ⟨[file], rfl⟩
      refine ⟨d', hput.trans htouches, htemporaries.trans (temporaries_modify d _), ?_⟩
      simp only [bind, Except.bind, Except.map, hrest]
      cases stagedNames (file :: taken) rest <;> rfl

end StagedReferences

/-- What staging the binaries of some references comes to on a disk: the names of their files. -/
def stagingOutcome (d : Disk) (r : References) : Except Fault (List String) :=
  match d.temporaryFault? with
  | some fault => .error (.stagingFailed fault.message)
  | none => stagedNames [] r.blobs

namespace StagedReferences

/-- Staging in a directory of a new name. Only the places of the files tell of the name. -/
theorem stage_of_new {r : References} (hnumber : name = temporaryName "patchwork-refs-" d.temporaries)
    (hnew : d.IsNew name) :
    ∃ d', d.UsesTemporary d' ∧
      stage d r = (d', (stagingOutcome d r).map fun files =>
        ⟨r.blobDigest, ofNames ["tmp", name], files.map fun file => ofNames ["tmp", name, file]⟩) ∧
      ∀ files, stagingOutcome d r = .ok files → d.temporaries < d'.temporaries ∧
        List.Forall₂ (StagedFile d' name) (files.map fun file => ofNames ["tmp", name, file]) r.blobs := by
  have hstart : "patchwork-refs-" ∈ temporaryStarts := by decide
  have hname : IsName name := hnumber ▸ isName_temporaryName hstart d.temporaries
  unfold stage stagingOutcome
  rw [makeTemporary_eq hstart hnumber hnew]
  cases hfault : d.temporaryFault? with
  | some fault => exact ⟨d, .refl d, rfl, nofun⟩
  | none =>
    have hmade : (d.withTemporary name).entryAt? ["tmp", name] = some (.directory []) :=
      entryAt?_withTemporary (hasDirectory_tmp hfault)
    have htouched : Touches (· = name) d (d.withTemporary name) := touches_withTemporary rfl
    have hcount := temporaries_withTemporary d name
    obtain ⟨d', htouches, htemporaries, hstage⟩ :=
      stageBlobs_eq r.blobs hname hnew.fits (holds_nil hmade)
    dsimp only
    rw [hstage]
    cases hnames : stagedNames [] r.blobs with
    | error fault =>
      obtain ⟨hremoved, hkept⟩ : Touches (· = name) (d.withTemporary name) _ ∧ _ := touches_removeTree hname rfl
      have huses := usesTemporary_of_touches hstart hnumber (htouched.trans hremoved) (hkept.trans hcount)
      exact ⟨_, huses, rfl, nofun⟩
    | ok files =>
      rw [hnames] at hstage
      have hstages := stageBlobs_eq_ok hname hstage
      have huses := usesTemporary_of_touches hstart hnumber (htouched.trans htouches) (htemporaries.trans hcount)
      refine ⟨d', huses, rfl, fun files' hfiles => ?_⟩
      cases hfiles
      exact ⟨by omega, hstages.files⟩

end StagedReferences

end PluginHost
