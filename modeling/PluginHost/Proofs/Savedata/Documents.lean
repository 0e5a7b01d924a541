import PluginHost.Proofs.Disk.Growth
import PluginHost.Savedata.Store
/-!
Documents on disk, and what a save under one identity does to the others.

The document of an identity is a file below the root, and a save makes the directories that the file lies in. A
document that is there is never touched by a save under another identity. One that is missing is not made
either, but its file name may be that of a directory which another document needs.
-/

namespace PluginHost

namespace Path

variable {path : String}

theorem steps_append {init : List (List Char)} {last : List Char} {ext : String}
    (hsegments : segments path = init ++ [last]) (hext : '/' ∉ ext.toList)
    (hlast : isIdle (last ++ ext.toList) = false) :
    steps (path ++ ext) = (init.filter fun s => !isIdle s) ++ [last ++ ext.toList] := by
  rw [steps, segments_append hsegments hext, List.filter_append, List.filter_cons_of_pos (by simpa using hlast),
    List.filter_nil]

end Path

namespace SavedataStore

open Disk PluginHost.Path

variable {root path a b : String} {d d' : Disk} {way : List String}

/-- What the name of every document ends with. -/
def documentEnding : String := ".toml"

/-- The names that lead from the root to the document of an identity. -/
def documentSteps (identity : String) : List (List Char) := steps (identity ++ documentEnding)

/-- The last step to a document is a name, whatever the identity ends with. -/
theorem ending_isName (last : List Char) :
    isIdle (last ++ documentEnding.toList) = false ∧ last ++ documentEnding.toList ≠ ['.', '.'] := by
  have hlength : 5 ≤ (last ++ documentEnding.toList).length := by simp [documentEnding]
  constructor
  · rw [Bool.eq_false_iff]
    intro hidle
    have hcases : last ++ documentEnding.toList = [] ∨ last ++ documentEnding.toList = ['.'] := by
      simpa only [isIdle, Bool.or_eq_true, decide_eq_true_eq] using hidle
    rcases hcases with heq | heq <;> simp [heq] at hlength
  · intro heq
    simp [heq] at hlength

theorem exists_segments_eq (path : String) : ∃ init last, segments path = init ++ [last] :=
  (List.eq_nil_or_concat' (segments path)).resolve_left (segments_ne_nil path)

/-- Identities with the same document are the same but for slashes and `.` that are of no account. -/
theorem steps_eq_of_documentSteps (h : documentSteps a = documentSteps b) : steps a = steps b := by
  obtain ⟨init, last, ha⟩ := exists_segments_eq a
  obtain ⟨init', last', hb⟩ := exists_segments_eq b
  rw [documentSteps, documentSteps, steps_append ha (by decide) (ending_isName _).1,
    steps_append hb (by decide) (ending_isName _).1] at h
  obtain ⟨hinit, hlast⟩ := List.append_inj' h rfl
  have hsame : last = last' := List.append_cancel_right (List.singleton_inj.mp hlast)
  rw [steps, steps, ha, hb, List.filter_append, List.filter_append, hinit, hsame]

/-- An accepted identity is a relative path without `..`. -/
theorem of_isInside (h : isInside a = true) :
    a ≠ "" ∧ isAbsolute a = false ∧ ∀ s ∈ segments a, s ≠ ['.', '.'] := by
  rw [isInside, Bool.and_eq_true, List.all_eq_true] at h
  obtain ⟨hne, hcomponents⟩ := h
  refine ⟨?_, ?_, ?_⟩
  · rintro rfl
    cases hne
  · rw [Bool.eq_false_iff]
    intro habsolute
    cases hcomponents _ (root_mem_components habsolute)
  · rintro s hs rfl
    cases hcomponents _ (parent_mem_components hs)

/-- The path of a document is that of the root with the names of the document after it. -/
structure IsDocument (root path : String) (names : List (List Char)) : Prop where
  start : ∀ d : Disk, d.start path = d.start root
  steps : Path.steps path = Path.steps root ++ names
  names : ∀ s ∈ names, isIdle s = false ∧ s ≠ ['.', '.']
  last : ∃ init last, segments path = init ++ [last] ∧ isIdle last = false

theorem documentPath_isDocument (h : documentPath root a = .ok path) : IsDocument root path (documentSteps a) := by
  rw [documentPath] at h
  split at h
  · next hinside =>
    cases h
    obtain ⟨hne, hrelative, hparent⟩ := of_isInside hinside
    have hjoined : join root a ++ ".toml" = join root (a ++ documentEnding) := join_append hne documentEnding
    have hdocument : isAbsolute (a ++ documentEnding) = false := (isAbsolute_append hne _).trans hrelative
    refine ⟨fun d => ?_, ?_, ?_, ?_⟩
    · rw [start, start, hjoined, isAbsolute_join hdocument]
    · rw [hjoined, steps_join hdocument, documentSteps]
    · obtain ⟨init, last, hsegments⟩ := exists_segments_eq a
      rw [documentSteps, steps_append hsegments (by decide) (ending_isName last).1]
      refine List.forall_mem_append.mpr ⟨fun s hs => ?_, List.forall_mem_singleton.mpr (ending_isName last)⟩
      obtain ⟨hmem, hidle⟩ := List.mem_filter.mp hs
      exact ⟨by simpa using hidle, hparent s (hsegments ▸ List.mem_append_left _ hmem)⟩
    · obtain ⟨init, last, hsegments⟩ := exists_segments_eq (join root a)
      exact ⟨init, _, segments_append hsegments (by decide), (ending_isName last).1⟩
  · cases h

/-- The way to a document is the way of the root and the names of the document. -/
theorem IsDocument.heads {names : List (List Char)} (h : IsDocument root path names)
    (hheads : d.Heads (d.start root) (Path.steps root) way) :
    d.Heads (d.start path) (Path.steps path) (way ++ names.map String.ofList) := by
  rw [h.start, h.steps]
  exact hheads.append h.names

/-! Loads. -/

theorem loadFile_of_lookup_eq (hpath : documentPath root a = .ok path) (h : d'.lookup path = d.lookup path) :
    loadFile root d' a = loadFile root d a := by
  have hcontains : d'.contains path = d.contains path := by rw [contains, contains, h]
  have hread : d'.readText path = d.readText path := by rw [readText, readText, Disk.read, Disk.read, h]
  simp only [loadFile, hpath, bind, Except.bind, hcontains, hread]

theorem loadFile_of_directory {entries : List (String × Entry)} (hpath : documentPath root a = .ok path)
    (h : d.lookup path = .ok (.directory entries)) : loadFile root d a = .error (.io .isADirectory) := by
  have hcontains : d.contains path = true := by rw [contains, h]
  have hread : d.readText path = .error .isADirectory := by
    rw [readText, Disk.read, h]
    rfl
  rw [loadFile, hpath]
  simp only [bind, Except.bind, hcontains, hread]
  rfl

theorem loadFile_of_missing {fault : IoFault} (hpath : documentPath root a = .ok path)
    (h : d.lookup path = .error fault) : loadFile root d a = .ok (documentOf none) := by
  have hcontains : d.contains path = false := by rw [contains, h]
  rw [loadFile, hpath]
  simp only [bind, Except.bind, hcontains]
  rfl

/-! Saves. -/

/-- A save keeps all that is on the disk but for its own document, and what it adds is on the way there. -/
theorem saveFile_grows (d : Disk) (hpath : documentPath root b = .ok path) (data : Toml.Table) :
    ∃ except, d.Keeps (saveFile root d b data).1 except ∧
      (except = [] ∨ (saveFile root d b data).1.place path = .ok except) ∧
      ∀ way, d.Heads (d.start path) (steps path) way → NewOn way d (saveFile root d b data).1 := by
  let made := (parent? path).elim (d, .ok ()) d.makeDirectories
  have hkeeps : ∀ except, d.Keeps made.1 except := by
    intro except
    cases hparent : parent? path with
    | none => simpa only [made, hparent, Option.elim] using Keeps.refl d except
    | some parent => simpa only [made, hparent, Option.elim] using makeDirectories_keeps d parent except
  have hnew : ∀ way, d.Heads (d.start path) (steps path) way → NewOn way d made.1 := by
    intro way hheads
    cases hparent : parent? path with
    | none => simpa only [made, hparent, Option.elim] using newOn_refl way d
    | some parent => simpa only [made, hparent, Option.elim] using makeDirectories_newOn hheads hparent
  have hdone : (saveFile root d b data).1 = made.1 ∨
      made.1.write path (Text.utf8 (Savedata.document data).toList) = .ok (saveFile root d b data).1 := by
    simp only [saveFile, hpath]
    split
    · next d' fault hfailed => exact Or.inl (congrArg Prod.fst hfailed).symm
    · next d' hmade =>
      have hmade' : made.1 = d' := congrArg Prod.fst hmade
      split
      · next d'' hwritten => exact Or.inr (hmade' ▸ hwritten)
      · exact Or.inl hmade'.symm
  rcases hdone with hmade | hwritten
  · rw [hmade]
    exact ⟨[], hkeeps [], Or.inl rfl, hnew⟩
  · obtain ⟨p, hplace, _⟩ := write_eq_put hwritten
    have hkept := write_keeps hwritten hplace
    refine ⟨p, (hkeeps p).trans hkept, Or.inr (hkept.place hplace), fun way hheads => ?_⟩
    refine (hnew way hheads).trans (write_newOn ?_ hwritten) hkept
    rw [(hkeeps p).start]
    exact hheads.keeps (hkeeps p)

theorem ofList_inj : Function.Injective String.ofList := fun _ _ => String.ofList_injective

/-- Different documents are at different places. -/
theorem place_ne (ha : documentPath root a = .ok path) {other : String} (hb : documentPath root b = .ok other)
    (hdiffer : documentSteps a ≠ documentSteps b) {p q : List String} (hp : d.place path = .ok p)
    (hq : d.place other = .ok q) : p ≠ q := by
  have hisA := documentPath_isDocument ha
  have hisB := documentPath_isDocument hb
  have hwalkA := walk_steps_of_place hp
  have hwalkB := walk_steps_of_place hq
  rw [hisA.steps, hisA.start, walk_append_eq_ok_iff] at hwalkA
  rw [hisB.steps, hisB.start, walk_append_eq_ok_iff] at hwalkB
  obtain ⟨r, hr, hnamesA⟩ := hwalkA
  obtain ⟨r', hr', hnamesB⟩ := hwalkB
  cases hr.symm.trans hr'
  rw [walk_names hisA.names hnamesA, walk_names hisB.names hnamesB]
  intro heq
  exact hdiffer (List.map_injective_iff.mpr ofList_inj (List.append_cancel_left heq))

/-- A document that is there is found again after a save under another identity. -/
theorem load_after_save_of_lookup (hdiffer : documentSteps a ≠ documentSteps b) (data : Toml.Table) {e : Entry}
    (ha : documentPath root a = .ok path) (hlookup : d.lookup path = .ok e) :
    loadFile root (saveFile root d b data).1 a = loadFile root d a := by
  cases hb : documentPath root b with
  | error fault => simp only [saveFile, hb]
  | ok other =>
    obtain ⟨except, hkeeps, hexcept, _⟩ := saveFile_grows d hb data
    obtain ⟨init, last, hsegments, hlast⟩ := (documentPath_isDocument ha).last
    have hname := namesDirectory_eq_false hsegments hlast
    obtain ⟨p, hplace, hentry⟩ := (lookup_eq_ok_iff hname).mp hlookup
    have hplace' := hkeeps.place hplace
    cases e with
    | directory entries =>
      obtain ⟨entries', hentry'⟩ := hkeeps.directory ⟨entries, hentry⟩
      have hlookup' := (lookup_eq_ok_iff hname).mpr ⟨p, hplace', hentry'⟩
      rw [loadFile_of_directory ha hlookup, loadFile_of_directory ha hlookup']
    | file bytes =>
      have hne : p ≠ except := by
        rcases hexcept with rfl | hexcept
        · rintro rfl
          cases hentry
        · exact place_ne ha hb hdiffer hplace' hexcept
      refine loadFile_of_lookup_eq ha ?_
      rw [hlookup]
      exact (lookup_eq_ok_iff hname).mpr ⟨p, hplace', hkeeps.file hne hentry⟩

/-- A document that was missing is missing still, unless its place is on the way to the saved document and now
    has a directory. -/
theorem load_after_save_of_missing (hdiffer : documentSteps a ≠ documentSteps b) (data : Toml.Table)
    {fault : IoFault} (hgrounded : d.Grounded root) (ha : documentPath root a = .ok path)
    (hlookup : d.lookup path = .error fault) :
    loadFile root (saveFile root d b data).1 a = .ok (documentOf none) ∨
      documentSteps a <+: documentSteps b ∧
        loadFile root (saveFile root d b data).1 a = .error (.io .isADirectory) := by
  cases hb : documentPath root b with
  | error fault =>
    simp only [saveFile, hb]
    exact Or.inl (loadFile_of_missing ha hlookup)
  | ok other =>
    obtain ⟨way, hheads⟩ := hgrounded
    have hwayA := (documentPath_isDocument ha).heads hheads
    have hwayB := (documentPath_isDocument hb).heads hheads
    obtain ⟨except, hkeeps, _, hnew⟩ := saveFile_grows d hb data
    have hadded := hnew _ hwayB
    generalize (saveFile root d b data).1 = after at hkeeps hadded ⊢
    obtain ⟨init, last, hsegments, hlast⟩ := (documentPath_isDocument ha).last
    cases hlookup' : after.lookup path with
    | error fault' => exact Or.inl (loadFile_of_missing ha hlookup')
    | ok e =>
      obtain ⟨hnone, hentry, hplace⟩ := hwayA.new_of_lookup hkeeps hsegments hlast (by simp [hlookup]) hlookup'
      -- What is new is on the way to the saved document, and not at its end, for that is another document.
      obtain ⟨hbegins, hdirectory⟩ := hadded _ e hnone hentry
      obtain ⟨entries, hentries⟩ := hdirectory fun heq =>
        hdiffer (List.map_injective_iff.mpr ofList_inj (List.append_cancel_left heq))
      have hfound := (lookup_eq_ok_iff (namesDirectory_eq_false hsegments hlast)).mpr ⟨_, hplace, hentries⟩
      refine Or.inr ⟨?_, loadFile_of_directory ha hfound⟩
      exact (List.prefix_map_iff_of_injective ofList_inj).mp ((List.prefix_append_right_inj way).mp hbegins)

/-- After a save a document is loaded as before, unless it was missing. If the root is grounded a missing document
    lies on the way to the saved one then. -/
theorem load_after_save_cases (root : String) (hdiffer : documentSteps a ≠ documentSteps b) (d : Disk)
    (data : Toml.Table) :
    loadFile root (saveFile root d b data).1 a = loadFile root d a ∨
      loadFile root d a = .ok (documentOf none) ∧
        (d.Grounded root → documentSteps a <+: documentSteps b ∧
          loadFile root (saveFile root d b data).1 a = .error (.io .isADirectory)) := by
  cases ha : documentPath root a with
  | error fault => simp [loadFile, ha, bind, Except.bind]
  | ok path =>
    cases hlookup : d.lookup path with
    | ok e => exact Or.inl (load_after_save_of_lookup hdiffer data ha hlookup)
    | error fault =>
      rw [loadFile_of_missing ha hlookup]
      by_cases hgrounded : d.Grounded root
      · exact (load_after_save_of_missing hdiffer data hgrounded ha hlookup).imp_right fun h => ⟨rfl, fun _ => h⟩
      · exact Or.inr ⟨rfl, fun h => absurd h hgrounded⟩

/-- Documents that are not on the way to the saved one are loaded as before. -/
theorem load_after_save (hgrounded : d.Grounded root) (haway : ¬ documentSteps a <+: documentSteps b)
    (data : Toml.Table) : loadFile root (saveFile root d b data).1 a = loadFile root d a :=
  have hdiffer : documentSteps a ≠ documentSteps b := fun heq => haway (heq ▸ List.prefix_rfl)
  (load_after_save_cases root hdiffer d data).resolve_right fun h => haway (h.2 hgrounded).1

/-- A save under one identity changes no document of another that is there, wherever the root is. If the root
    goes through no `..` where there is no directory yet, it changes nothing about the others at all but for this:
    where the way to the saved document goes through the file name of another document that is missing, that one
    cannot be loaded any more, because there is a directory now. -/
theorem save_leaves_other_documents (root : String) (d : Disk) (a b : String) (data : Toml.Table)
    (hdiffer : Path.steps a ≠ Path.steps b) :
    let store := onDisk root
    let after := (store.save d b data).1
    ((store.load d a).2 ≠ .ok (documentOf none) → (store.load after a).2 = (store.load d a).2) ∧
    (d.Grounded root → ¬ documentSteps a <+: documentSteps b →
      (store.load after a).2 = (store.load d a).2) ∧
    (d.Grounded root → documentSteps a <+: documentSteps b →
      (store.load after a).2 = (store.load d a).2 ∨ (store.load after a).2 = .error (.io .isADirectory)) := by
  intro store after
  have hdiffer' : documentSteps a ≠ documentSteps b := fun h => hdiffer (steps_eq_of_documentSteps h)
  have hcases := load_after_save_cases root hdiffer' d data
  refine ⟨fun hthere => ?_, fun hgrounded haway => load_after_save hgrounded haway data, fun hgrounded _ => ?_⟩
  · exact hcases.resolve_right fun h => hthere h.1
  · exact hcases.imp_right fun h => (h.2 hgrounded).2

/-- Two plugins of one directory, the first of which has saved before. -/
theorem save_leaves_other_documents_of_neighbours :
    let store := onDisk "/data"
    let d := (store.save ⟨[], [], 0⟩ "mods/zoom.cs" [("level", .int 3)]).1
    let after := (store.save d "mods/jump.cs" []).1
    Path.steps "mods/zoom.cs" ≠ Path.steps "mods/jump.cs" ∧ d.Grounded "/data" ∧
      ¬ documentSteps "mods/zoom.cs" <+: documentSteps "mods/jump.cs" ∧
      (store.load after "mods/zoom.cs").2 = (store.load d "mods/zoom.cs").2 ∧
      (store.load d "mods/zoom.cs").2.toOption.map (·.created) = some false := by
  intro store d after
  have hdiffer : Path.steps "mods/zoom.cs" ≠ Path.steps "mods/jump.cs" := by decide +kernel
  have hgrounded : d.Grounded "/data" := grounded_of_no_parent (by decide +kernel)
  have haway : ¬ documentSteps "mods/zoom.cs" <+: documentSteps "mods/jump.cs" := by decide +kernel
  have hsame := (save_leaves_other_documents "/data" d "mods/zoom.cs" "mods/jump.cs" [] hdiffer).2.1
  exact ⟨hdiffer, hgrounded, haway, hsame hgrounded haway, by decide +kernel⟩

/-- A document that lies in a directory named like the file of another one. As long as that file is missing, the
    directory takes its place. -/
theorem save_displaces_missing_document :
    let store := onDisk "/data"
    let d : Disk := ⟨[], [], 0⟩
    let after := (store.save d "a.toml/b" []).1
    isInside "a" = true ∧ isInside "a.toml/b" = true ∧ Path.components "a" ≠ Path.components "a.toml/b" ∧
      (store.save d "a.toml/b" []).2 = .ok () ∧ (store.load d "a").2 = .ok ⟨[], true⟩ ∧
      (store.load after "a").2 = .error (.io .isADirectory) := by
  intro store d after
  exact ⟨by decide +kernel, by decide +kernel, by decide +kernel, rfl, rfl, rfl⟩

/-- The disk after several saves. -/
def afterSaves (root : String) (d : Disk) (saves : List (String × Toml.Table)) : Disk :=
  saves.foldl (fun d save => (saveFile root d save.1 save.2).1) d

theorem saveFile_grounded (hgrounded : d.Grounded root) (b : String) (data : Toml.Table) :
    (saveFile root d b data).1.Grounded root := by
  cases hb : documentPath root b with
  | error fault => simpa only [saveFile, hb] using hgrounded
  | ok path =>
    obtain ⟨_, hkeeps, _⟩ := saveFile_grows d hb data
    exact hkeeps.grounded hgrounded

/-- What is saved for some plugins, in any order and any number of times, does not show in what others load. -/
theorem load_afterSaves {saves : List (String × Toml.Table)} (hgrounded : d.Grounded root)
    (haway : ∀ save ∈ saves, ¬ documentSteps a <+: documentSteps save.1) :
    loadFile root (afterSaves root d saves) a = loadFile root d a := by
  induction saves generalizing d with
  | nil => rfl
  | cons save rest ih =>
    rw [List.forall_mem_cons] at haway
    rw [← load_after_save hgrounded haway.1 save.2]
    exact ih (saveFile_grounded hgrounded save.1 save.2) haway.2

end SavedataStore

end PluginHost
