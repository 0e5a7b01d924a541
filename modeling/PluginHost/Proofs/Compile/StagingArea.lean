import Mathlib.Data.List.Forall2
import PluginHost.Compile.Compiler
import PluginHost.Proofs.Disk.Entries
import PluginHost.Proofs.Json.Numeral
/-!
What staging does to a disk.

Binaries in memory are staged in a new directory among the temporary ones, whose name tells what it is for.
Main statements: a staging that succeeds leaves exactly the files of its binaries in one directory that was
not there before, and one that fails leaves all directories for staged binaries as they were.
-/

namespace PluginHost

open Entry PluginHost.Path

namespace Disk

variable {d d' d'' : Disk} {name start path : String}

theorem isName_tmp : IsName "tmp" := ⟨by decide, by decide, by decide, by decide⟩

theorem isPlace_temporary (hname : IsName name) : IsPlace ["tmp", name] := .cons isName_tmp (.singleton hname)

theorem join_temporaryRoot (hname : IsName name) : Path.join temporaryRoot name = ofNames ["tmp", name] := by
  have hroot : temporaryRoot = ofNames ["tmp"] := rfl
  rw [hroot]
  exact join_ofNames (.singleton isName_tmp) hname

theorem apart_temporary {other : String} (h : other ≠ name) : Apart ["tmp", name] ["tmp", other] :=
  (apart_of_ne (fun heq => h heq.symm) [] []).cons "tmp"

theorem isName_temporary (hlong : 2 < start.toList.length) (hslash : '/' ∉ start.toList) (n : Nat) :
    IsName (start ++ String.ofList (Text.ofNat n)) := by
  have hchars : (start ++ String.ofList (Text.ofNat n)).toList = start.toList ++ Text.ofNat n := by
    rw [String.toList_append, String.toList_ofList]
  have hlength : 2 < (start ++ String.ofList (Text.ofNat n)).toList.length := by
    rw [hchars, List.length_append]
    omega
  refine ⟨?_, ?_, ?_, fun hmem => ?_⟩
  · exact fun h => absurd hlength (by rw [h]; decide)
  · exact fun h => absurd hlength (by rw [h]; decide)
  · exact fun h => absurd hlength (by rw [h]; decide)
  · rw [hchars] at hmem
    rcases List.mem_append.mp hmem with hstart | hdigit
    · exact hslash hstart
    · exact absurd (Json.isDigit_of_mem_ofNat hdigit) (by decide)

/-- A temporary directory that is made. -/
structure MakesTemporary (d d' : Disk) (name : String) : Prop where
  isName : IsName name
  fits : Fits ["tmp", name]
  absent : d.entryAt? ["tmp", name] = none
  present : d'.entryAt? ["tmp", name] = some (.directory [])
  others : ∀ place, Apart ["tmp", name] place → d'.entryAt? place = d.entryAt? place

theorem makeTemporary_eq_ok (hlong : 2 < start.toList.length) (hslash : '/' ∉ start.toList)
    (h : d.makeTemporary start = .ok (d', path)) :
    ∃ name, start.toList <+: name.toList ∧ path = ofNames ["tmp", name] ∧ MakesTemporary d d' name := by
  have hname := isName_temporary hlong hslash d.temporaries
  have hprefix : start.toList <+: (start ++ String.ofList (Text.ofNat d.temporaries)).toList := by
    rw [String.toList_append]
    exact List.prefix_append _ _
  unfold makeTemporary at h
  generalize start ++ String.ofList (Text.ofNat d.temporaries) = name at h hname hprefix
  have hplace := isPlace_temporary hname
  simp only [join_temporaryRoot hname] at h
  cases hmake : d.makeDirectory (ofNames ["tmp", name]) with
  | error fault =>
    rw [hmake] at h
    cases h
  | ok made =>
    rw [hmake] at h
    cases h
    obtain ⟨hfits, habsent, ⟨entries, hdirectory⟩, rfl⟩ := makeDirectory_eq_ok hplace hmake
    exact ⟨name, hprefix, rfl, hname, hfits, habsent, entryAt?_put_self hplace.ne_nil hdirectory,
      fun place hapart => entryAt?_put_of_apart hapart⟩

/-- How the names of directories for staged binaries start. -/
def IsStagingName (name : String) : Prop := "patchwork-refs-".toList <+: name.toList

/-- All directories for staged binaries are the same on two disks, with what is in them. -/
def SameStaging (d d' : Disk) : Prop :=
  ∀ name, IsStagingName name → d'.entryAt? ["tmp", name] = d.entryAt? ["tmp", name]

theorem SameStaging.refl (d : Disk) : SameStaging d d := fun _ _ => rfl

theorem SameStaging.trans (h : SameStaging d d') (h' : SameStaging d' d'') : SameStaging d d'' :=
  fun name hname => (h' name hname).trans (h name hname)

/-- A temporary directory that is removed again leaves the directories for staged binaries as they were before
    it was made. -/
theorem sameStaging_removeTree (hname : IsName name) (hfits : Fits ["tmp", name])
    (habsent : d.entryAt? ["tmp", name] = none)
    (hothers : ∀ other, IsStagingName other → other ≠ name →
      d'.entryAt? ["tmp", other] = d.entryAt? ["tmp", other]) :
    d.SameStaging (d'.removeTree (ofNames ["tmp", name])) := by
  intro other hother
  by_cases heq : other = name
  · subst heq
    rw [habsent]
    exact entryAt?_removeTree_self (isPlace_temporary hname) hfits
  · rw [← hothers other hother heq]
    exact entryAt?_removeTree_of_apart (isPlace_temporary hname) (apart_temporary heq)

end Disk

open Disk

variable {start d d' : Disk} {name path : String} {blob : Blob} {s : StagedReferences} {r r' : References}

/-- A binary that is staged in a directory, as a file under the last part of its name. -/
def StagedFile (d : Disk) (name path : String) (blob : Blob) : Prop :=
  ∃ file, fileName? blob.fileName = some file ∧ path = ofNames ["tmp", name, file] ∧
    Fits ["tmp", name, file] ∧ d.entryAt? ["tmp", name, file] = some (.file blob.bytes)

/-- Everything under a name is the same on two disks if the entry is. -/
theorem StagedFile.of_entryAt?_eq (h : d'.entryAt? ["tmp", name] = d.entryAt? ["tmp", name])
    (hfile : StagedFile d name path blob) : StagedFile d' name path blob := by
  obtain ⟨file, hname, hpath, hfits, hentry⟩ := hfile
  refine ⟨file, hname, hpath, hfits, ?_⟩
  have hbelow : ∀ disk : Disk,
      disk.entryAt? ["tmp", name, file] = (disk.entryAt? ["tmp", name]).bind (find? [file]) :=
    fun disk => find?_append ["tmp", name] [file] _
  rw [hbelow, h, ← hbelow, hentry]

/-- What staging some binaries in a directory does to a disk. -/
structure Stages (d d' : Disk) (name : String) (paths : List String) (blobs : List Blob) : Prop where
  outside : ∀ place, Apart ["tmp", name] place → d'.entryAt? place = d.entryAt? place
  directory : (∃ entries, d.entryAt? ["tmp", name] = some (.directory entries)) →
    ∃ entries, d'.entryAt? ["tmp", name] = some (.directory entries)
  kept : ∀ file e, IsName file → d.entryAt? ["tmp", name, file] = some e →
    d'.entryAt? ["tmp", name, file] = some e ∧ ofNames ["tmp", name, file] ∉ paths
  nodup : paths.Nodup
  files : List.Forall₂ (StagedFile d' name) paths blobs

namespace StagedReferences

theorem isPlace_staged {file : String} (hname : IsName name) (hfile : IsName file) :
    IsPlace ["tmp", name, file] := .cons isName_tmp (.cons hname (.singleton hfile))

theorem stageBlob_eq_ok (hname : IsName name) (h : stageBlob (ofNames ["tmp", name]) d blob = .ok (d', path)) :
    ∃ file, fileName? blob.fileName = some file ∧ path = ofNames ["tmp", name, file] ∧
      Fits ["tmp", name, file] ∧ d.entryAt? ["tmp", name, file] = none ∧
      (∃ entries, d.entryAt? ["tmp", name] = some (.directory entries)) ∧
      d' = d.modify (put (.file blob.bytes) ["tmp", name, file]) := by
  unfold stageBlob at h
  cases hfile : fileName? blob.fileName with
  | none =>
    rw [hfile] at h
    cases h
  | some file =>
    have hplace := isPlace_staged hname (isName_of_fileName? hfile)
    have hjoin : Path.join (ofNames ["tmp", name]) file = ofNames ["tmp", name, file] :=
      join_ofNames (isPlace_temporary hname) (isName_of_fileName? hfile)
    simp only [hfile, hjoin] at h
    split at h
    · cases h
    · next hfree =>
      cases hwrite : d.write (ofNames ["tmp", name, file]) blob.bytes with
      | error fault =>
        rw [hwrite] at h
        cases h
      | ok written =>
        rw [hwrite] at h
        cases h
        obtain ⟨hfits, hdirectory, rfl⟩ := write_eq_ok hplace hwrite
        rw [contains_ofNames hplace hfits, Option.not_isSome_iff_eq_none] at hfree
        exact ⟨file, rfl, rfl, hfits, hfree, hdirectory, rfl⟩

/-- One binary more, in front of others that are staged after it. -/
theorem stages_cons {paths : List String} {blobs : List Blob} {file : String} (hname : IsName name)
    (hfile : fileName? blob.fileName = some file) (hfits : Fits ["tmp", name, file])
    (habsent : d.entryAt? ["tmp", name, file] = none)
    (hdirectory : ∃ entries, d.entryAt? ["tmp", name] = some (.directory entries))
    (hrest : Stages (d.modify (put (.file blob.bytes) ["tmp", name, file])) d' name paths blobs) :
    Stages d d' name (ofNames ["tmp", name, file] :: paths) (blob :: blobs) := by
  obtain ⟨entries, hdirectory⟩ := hdirectory
  have hput : (d.modify (put (.file blob.bytes) ["tmp", name, file])).entryAt? ["tmp", name, file] =
      some (.file blob.bytes) := entryAt?_put_self (List.cons_ne_nil _ _) hdirectory
  obtain ⟨after, hafter⟩ := parent_of_entryAt? (List.cons_ne_nil _ _) hput
  obtain ⟨hkept, hfresh⟩ := hrest.kept file _ (isName_of_fileName? hfile) hput
  refine ⟨fun place hapart => ?_, fun _ => hrest.directory ⟨_, hafter⟩, ?_,
    List.nodup_cons.mpr ⟨hfresh, hrest.nodup⟩, .cons ⟨file, hfile, rfl, hfits, hkept⟩ hrest.files⟩
  · rw [hrest.outside place hapart]
    exact entryAt?_put_of_apart (hapart.append [file])
  · intro other e hother hentry
    -- A file that was there before is another one, because the place of the new one was free.
    have hne : file ≠ other := by
      rintro rfl
      rw [habsent] at hentry
      cases hentry
    have hsame : (d.modify (put (.file blob.bytes) ["tmp", name, file])).entryAt? ["tmp", name, other] =
        d.entryAt? ["tmp", name, other] := entryAt?_put_of_apart (((apart_of_ne hne [] []).cons name).cons "tmp")
    obtain ⟨hkept, hnot⟩ := hrest.kept other e hother (hsame.trans hentry)
    refine ⟨hkept, fun hmem => ?_⟩
    rcases List.mem_cons.mp hmem with hequal | hmem
    · have hnames := ofNames_injective (isPlace_staged hname hother)
        (isPlace_staged hname (isName_of_fileName? hfile)) hequal
      cases hnames
      exact hne rfl
    · exact hnot hmem

theorem stageBlobs_eq_ok {paths : List String} {blobs : List Blob} (hname : IsName name)
    (h : stageBlobs (ofNames ["tmp", name]) d blobs = .ok (d', paths)) : Stages d d' name paths blobs := by
  induction blobs generalizing d paths with
  | nil =>
    cases h
    exact ⟨fun _ _ => rfl, id, fun _ _ _ hentry => ⟨hentry, List.not_mem_nil⟩, List.nodup_nil, .nil⟩
  | cons blob rest ih =>
    rw [stageBlobs] at h
    cases hblob : stageBlob (ofNames ["tmp", name]) d blob with
    | error fault =>
      rw [hblob] at h
      cases h
    | ok first =>
      obtain ⟨written, path⟩ := first
      rw [hblob] at h
      simp only [bind, Except.bind] at h
      cases hrest : stageBlobs (ofNames ["tmp", name]) written rest with
      | error fault =>
        rw [hrest] at h
        cases h
      | ok others =>
        obtain ⟨left, others⟩ := others
        rw [hrest] at h
        cases h
        obtain ⟨file, hfile, rfl, hfits, habsent, hdirectory, rfl⟩ := stageBlob_eq_ok hname hblob
        exact stages_cons hname hfile hfits habsent hdirectory (ih hrest)

end StagedReferences

/-- The binaries of some references are staged on a disk, in a directory that was not there at the start. All
    other directories for staged binaries are as they were at the start. -/
structure Staging (start d : Disk) (name : String) (s : StagedReferences) (r : References) : Prop where
  isStagingName : IsStagingName name
  isName : IsName name
  fits : Fits ["tmp", name]
  directory : s.directory = ofNames ["tmp", name]
  digest : s.digest = r.blobDigest
  absent : start.entryAt? ["tmp", name] = none
  others : ∀ other, IsStagingName other → other ≠ name →
    d.entryAt? ["tmp", other] = start.entryAt? ["tmp", other]
  present : ∃ entries, d.entryAt? ["tmp", name] = some (.directory entries)
  nodup : s.paths.Nodup
  files : List.Forall₂ (StagedFile d name) s.paths r.blobs

namespace Staging

theorem of_sameStaging {before : Disk} (hsame : SameStaging start before) (h : Staging before d name s r) :
    Staging start d name s r :=
  { h with
    absent := (hsame name h.isStagingName).symm.trans h.absent
    others := fun other hother hne => (h.others other hother hne).trans (hsame other hother) }

theorem of_blobs_eq (h : Staging start d name s r) (hblobs : r.blobs = r'.blobs) : Staging start d name s r' := by
  have hdigest : r.blobDigest = r'.blobDigest := by
    rw [References.blobDigest, References.digestInput, hblobs, ← References.digestInput, ← References.blobDigest]
  obtain ⟨hstaging, hname, hfits, hdirectory, hknown, habsent, hothers, hpresent, hnodup, hfiles⟩ := h
  exact ⟨hstaging, hname, hfits, hdirectory, hknown.trans hdigest, habsent, hothers, hpresent, hnodup,
    hblobs ▸ hfiles⟩

theorem sameStaging (h : Staging start d name s r) (hsame : SameStaging d d') : Staging start d' name s r :=
  { h with
    others := fun other hother hne => (hsame other hother).trans (h.others other hother hne)
    present := by
      rw [hsame name h.isStagingName]
      exact h.present
    files := h.files.imp fun _ _ => StagedFile.of_entryAt?_eq (hsame name h.isStagingName) }

/-- Removing what is staged brings back the start. -/
theorem removeTree (h : Staging start d name s r) : SameStaging start (d.removeTree s.directory) := by
  rw [h.directory]
  exact sameStaging_removeTree h.isName h.fits h.absent h.others

end Staging

namespace StagedReferences

theorem makeTemporary_refs {directory : String} (h : d.makeTemporary "patchwork-refs-" = .ok (d', directory)) :
    ∃ name, IsStagingName name ∧ directory = ofNames ["tmp", name] ∧ MakesTemporary d d' name :=
  makeTemporary_eq_ok (by decide) (by decide) h

theorem stage_eq_ok (h : (stage d r).2 = .ok s) : ∃ name, Staging d (stage d r).1 name s r := by
  unfold stage at h ⊢
  cases hmake : d.makeTemporary "patchwork-refs-" with
  | error fault =>
    rw [hmake] at h
    cases h
  | ok made =>
    obtain ⟨made, directory⟩ := made
    obtain ⟨name, hstaging, rfl, hmakes⟩ := makeTemporary_refs hmake
    simp only [hmake] at h ⊢
    cases hblobs : stageBlobs (ofNames ["tmp", name]) made r.blobs with
    | error fault =>
      rw [hblobs] at h
      cases h
    | ok staged =>
      obtain ⟨staged, paths⟩ := staged
      rw [hblobs] at h
      cases h
      have hstages := stageBlobs_eq_ok hmakes.isName hblobs
      refine ⟨name, hstaging, hmakes.isName, hmakes.fits, rfl, rfl, hmakes.absent, fun other _ hne => ?_,
        hstages.directory ⟨_, hmakes.present⟩, hstages.nodup, hstages.files⟩
      have hapart := apart_temporary hne
      exact (hstages.outside _ hapart).trans (hmakes.others _ hapart)

theorem stage_eq_error {fault : Fault} (h : (stage d r).2 = .error fault) : SameStaging d (stage d r).1 := by
  unfold stage at h ⊢
  cases hmake : d.makeTemporary "patchwork-refs-" with
  | error fault => exact SameStaging.refl d
  | ok made =>
    obtain ⟨made, directory⟩ := made
    obtain ⟨name, _, rfl, hmakes⟩ := makeTemporary_refs hmake
    simp only [hmake] at h ⊢
    cases hblobs : stageBlobs (ofNames ["tmp", name]) made r.blobs with
    | ok staged =>
      rw [hblobs] at h
      cases h
    | error fault =>
      dsimp only
      exact sameStaging_removeTree hmakes.isName hmakes.fits hmakes.absent fun other _ hne =>
        hmakes.others _ (apart_temporary hne)

end StagedReferences

end PluginHost
