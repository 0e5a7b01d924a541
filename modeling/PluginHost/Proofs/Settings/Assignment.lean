import PluginHost.Proofs.Disk.Entries
import PluginHost.Proofs.Settings.PartialDocument
import PluginHost.Proofs.Text.Blank
import PluginHost.Settings.Settings
/-!
Settings that are changed one after another.

Lists are shown with marks between their items and are read back by these marks, so a shown list is read back only if
its items are as a list that was read has them. Settings keep this form through all changes. Main statement:
`assign_lossless`.
-/

namespace PluginHost

/-! Items between commas. -/

namespace Text

variable {s : List Char}

/-- The items between commas, trimmed, without those that are blank. -/
def items (s : List Char) : List (List Char) := ((s.splitOnP (· = ',')).map trim).filter (!·.isEmpty)

/-- An item of a list is not empty, has no blank at its ends, and has no comma in it. -/
structure IsItem (s : List Char) : Prop where
  ne_nil : s ≠ []
  trimmed : Trimmed s
  plain : ',' ∉ s

theorem isItem_of_mem_items {item : List Char} (hitem : item ∈ items s) : IsItem item := by
  obtain ⟨htrim, hne⟩ := List.mem_filter.mp hitem
  obtain ⟨part, hpart, rfl⟩ := List.mem_map.mp htrim
  exact ⟨by simpa using hne, trimmed_trim part, fun hcomma =>
    not_mem_of_mem_splitOnP hpart ((mem_trim_iff (by decide)).mp hcomma)⟩

theorem items_append_comma (s t : List Char) : items (s ++ ',' :: t) = items s ++ items t := by
  rw [items, List.splitOnP_append_cons _ _ (by decide), List.map_append, List.filter_append]
  rfl

/-- A blank in front of the first item does not count. -/
theorem items_cons_space (s : List Char) : items (' ' :: s) = items s := by
  rw [items, items, List.splitOnP_cons_eq_if_modifyHead, if_neg (by decide)]
  cases List.splitOnP (· = ',') s with
  | nil => rfl
  | cons first rest => rw [List.modifyHead_cons, List.map_cons, List.map_cons, trim_cons_of_isBlank (by decide)]

theorem IsItem.items_eq (hitem : IsItem s) : items s = [s] := by
  have hplain : ∀ c ∈ s, decide (c = ',') = false := fun c hc =>
    decide_eq_false fun hcomma => hitem.plain (hcomma ▸ hc)
  rw [items, List.splitOnP_eq_singleton hplain, List.map_singleton, trim_eq_self_iff.mpr hitem.trimmed]
  simp [hitem.ne_nil]

/-- Items with commas and spaces between them are read back. -/
theorem items_intercalate {parts : List (List Char)} (hparts : ∀ part ∈ parts, IsItem part) :
    items ([',', ' '].intercalate parts) = parts := by
  induction parts with
  | nil => rfl
  | cons part rest ih =>
    obtain ⟨hpart, hrest⟩ := List.forall_mem_cons.mp hparts
    cases rest with
    | nil => rw [List.intercalate_singleton, hpart.items_eq]
    | cons next more =>
      rw [List.intercalate_cons_cons, List.append_assoc, List.cons_append, items_append_comma, List.singleton_append,
        items_cons_space, hpart.items_eq, ih hrest]
      rfl

end Text

theorem SettingsKey.ofName_eq_ok_iff {name : String} {key : SettingsKey} : ofName name = .ok key ↔ key.name = name := by
  constructor
  · intro hkey
    rw [ofName] at hkey
    split at hkey
    · next found hfound =>
      cases hkey
      simpa using List.find?_some hfound
    · cases hkey
  · rintro rfl
    exact ofName_name key

namespace Settings

variable {s s' : Settings} {text : String}

/-! Forms of values. -/

theorem splitList_eq (text : String) : splitList text = (Text.items text.toList).map String.ofList := rfl

/-- A text as the value of an optional setting: it is not empty and has no blank at its ends. -/
structure IsPlace (text : String) : Prop where
  ne_empty : text ≠ ""
  trimmed : Text.Trimmed text.toList

/-- Settings as changes leave them: every value has the form in which it is read. -/
structure Canonical (s : Settings) : Prop where
  program : Text.trim s.compiler.program.toList ≠ []
  extraArgs : ∀ arg ∈ s.compiler.extraArgs, Text.IsWord arg.toList
  references : ∀ reference ∈ s.compiler.references, Text.IsItem reference.toList
  policyPath : ∀ path ∈ s.policy.path, IsPlace path
  sourceDir : ∀ path ∈ s.plugins.sourceDir, IsPlace path
  savedataDir : ∀ path ∈ s.plugins.savedataDir, IsPlace path

theorem standard_canonical : standard.Canonical where
  program := by decide
  extraArgs := by
    intro arg harg
    obtain rfl := List.mem_singleton.mp harg
    exact Text.isWord_of_mem_words (s := "-nologo".toList) (by decide)
  references := List.forall_mem_nil _
  policyPath := by simp [standard]
  sourceDir := by simp [standard]
  savedataDir := by simp [standard]

theorem isPlace_of_mem_optional {path : String} (hpath : path ∈ optional text) : IsPlace path := by
  rw [optional] at hpath
  split at hpath
  · cases hpath
  · next hne =>
    cases hpath
    refine ⟨fun hempty => hne ?_, ?_⟩
    · rw [String.ofList_eq_empty_iff.mp hempty]
      rfl
    · rw [String.toList_ofList]
      exact Text.trimmed_trim _

theorem IsPlace.optional_eq (h : IsPlace text) : optional text = some text := by
  rw [optional, Text.trim_eq_self_iff.mpr h.trimmed]
  have hne : text.toList.isEmpty = false := by simpa using h.ne_empty
  simp [hne]

/-- The value of an optional setting that is set is read back. -/
theorem optional_getD {value : Option String} (hplaces : ∀ text ∈ value, IsPlace text) (hset : value.isSome)
    (fallback : String) : optional (value.getD fallback) = value := by
  obtain ⟨text, rfl⟩ := Option.isSome_iff_exists.mp hset
  exact (hplaces text rfl).optional_eq

theorem isSome_of_optional_getD {value : Option String} {fallback : String} (hfallback : (optional fallback).isSome)
    (hsame : optional (value.getD fallback) = value) : value.isSome := by
  cases value with
  | none =>
    have hnone : optional fallback = none := hsame
    rw [hnone] at hfallback
    cases hfallback
  | some text => rfl

theorem boolOfWord?_boolWord (b : Bool) : boolOfWord? (boolWord b) = some b := by
  cases b <;> decide +kernel

theorem set_program (s : Settings) (text : String) :
    s.set .program text =
      if (Text.trim text.toList).isEmpty then .error .emptyProgram
      else .ok { s with compiler.program := text } := by
  rw [set]
  split <;> rfl

/-! Changes. -/

/-- What a change of a key to a text writes, if it is made. -/
inductive Written (s : Settings) (text : String) : SettingsKey → Settings → Prop
  | program (htext : Text.trim text.toList ≠ []) :
    Written s text .program { s with compiler.program := text }
  | extraArgs :
    Written s text .extraArgs { s with compiler.extraArgs := (Text.words text.toList).map String.ofList }
  | references : Written s text .references { s with compiler.references := splitList text }
  | emitDebugSymbols {b : Bool} (hword : boolOfWord? text = some b) :
    Written s text .emitDebugSymbols { s with compiler.emitDebugSymbols := b }
  | reuseStagedReferences {b : Bool} (hword : boolOfWord? text = some b) :
    Written s text .reuseStagedReferences { s with compiler.reuseStagedReferences := b }
  | policyPath : Written s text .policyPath { s with policy.path := optional text }
  | sourceDir : Written s text .sourceDir { s with plugins.sourceDir := optional text }
  | savedataDir : Written s text .savedataDir { s with plugins.savedataDir := optional text }

theorem readBool_eq_ok_iff {key : SettingsKey} {b : Bool} :
    readBool key text = .ok b ↔ boolOfWord? text = some b := by
  rw [readBool]
  cases boolOfWord? text <;> simp

theorem set_eq_ok_iff {key : SettingsKey} : s.set key text = .ok s' ↔ s.Written text key s' := by
  constructor
  · intro hset
    cases key with
    | program =>
      rw [set_program] at hset
      split at hset
      · cases hset
      · next hne =>
        cases hset
        exact .program (by simpa using hne)
    | emitDebugSymbols =>
      rw [set] at hset
      obtain ⟨b, hread, hmade⟩ := bind_eq_ok_iff.mp hset
      cases hmade
      exact .emitDebugSymbols (readBool_eq_ok_iff.mp hread)
    | reuseStagedReferences =>
      rw [set] at hset
      obtain ⟨b, hread, hmade⟩ := bind_eq_ok_iff.mp hset
      cases hmade
      exact .reuseStagedReferences (readBool_eq_ok_iff.mp hread)
    | _ =>
      cases hset
      constructor
  · intro hwritten
    cases hwritten with
    | program hne =>
      rw [set_program, if_neg (by simpa using hne)]
    | emitDebugSymbols hword | reuseStagedReferences hword =>
      simp only [set, readBool_eq_ok_iff.mpr hword]
      rfl
    | _ => rfl

variable {key other : SettingsKey}

/-- A change of a key leaves all others as they are. -/
theorem Written.value?_eq (h : s.Written text key s') (hother : other ≠ key) : s'.value? other = s.value? other := by
  cases h <;> cases other <;> first | rfl | exact absurd rfl hother

theorem Written.canonical (h : s.Written text key s') (hs : s.Canonical) : s'.Canonical := by
  cases h with
  | program htext => exact { hs with program := htext }
  | extraArgs =>
    refine { hs with extraArgs := fun arg harg => ?_ }
    obtain ⟨word, hword, rfl⟩ := List.mem_map.mp harg
    rw [String.toList_ofList]
    exact Text.isWord_of_mem_words hword
  | references =>
    refine { hs with references := fun reference hreference => ?_ }
    rw [splitList_eq] at hreference
    obtain ⟨item, hitem, rfl⟩ := List.mem_map.mp hreference
    rw [String.toList_ofList]
    exact Text.isItem_of_mem_items hitem
  | emitDebugSymbols => exact { hs with }
  | reuseStagedReferences => exact { hs with }
  | policyPath => exact { hs with policyPath := fun path => isPlace_of_mem_optional }
  | sourceDir => exact { hs with sourceDir := fun path => isPlace_of_mem_optional }
  | savedataDir => exact { hs with savedataDir := fun path => isPlace_of_mem_optional }

/-- A list that is shown with a mark between its items is read back, if the reader gives the items of texts with that
    mark between them. -/
theorem map_ofList_intercalate {split : List Char → List (List Char)} {P : List Char → Prop} (mark : String)
    (hsplit : ∀ {parts : List (List Char)}, (∀ part ∈ parts, P part) →
      split (mark.toList.intercalate parts) = parts)
    {texts : List String} (htexts : ∀ text ∈ texts, P text.toList) :
    (split (mark.intercalate texts).toList).map String.ofList = texts := by
  rw [String.toList_intercalate, hsplit fun part hpart => ?_, List.map_map]
  · simp [Function.comp_def]
  · obtain ⟨text, htext, rfl⟩ := List.mem_map.mp hpart
    exact htexts text htext

/-- What is shown of a key is read back, unless the key is an optional one that is not set. -/
theorem Canonical.written_get (hs : s.Canonical) (hkey : (s.value? key).isSome) : s.Written (s.get key) key s := by
  cases key with
  | program => exact .program hs.program
  | extraArgs =>
    have hargs : (Text.words (s.get .extraArgs).toList).map String.ofList = s.compiler.extraArgs :=
      map_ofList_intercalate " " Text.words_intercalate hs.extraArgs
    have hwritten : s.Written (s.get .extraArgs) .extraArgs _ := .extraArgs
    rwa [hargs] at hwritten
  | references =>
    have hreferences : splitList (s.get .references) = s.compiler.references :=
      map_ofList_intercalate ", " Text.items_intercalate hs.references
    have hwritten : s.Written (s.get .references) .references _ := .references
    rwa [hreferences] at hwritten
  | emitDebugSymbols => exact .emitDebugSymbols (boolOfWord?_boolWord _)
  | reuseStagedReferences => exact .reuseStagedReferences (boolOfWord?_boolWord _)
  | policyPath =>
    have hpath : optional (s.get .policyPath) = s.policy.path :=
      optional_getD hs.policyPath (Option.isSome_map.symm.trans hkey) _
    have hwritten : s.Written (s.get .policyPath) .policyPath _ := .policyPath
    rwa [hpath] at hwritten
  | sourceDir =>
    have hdirectory : optional (s.get .sourceDir) = s.plugins.sourceDir :=
      optional_getD hs.sourceDir (Option.isSome_map.symm.trans hkey) _
    have hwritten : s.Written (s.get .sourceDir) .sourceDir _ := .sourceDir
    rwa [hdirectory] at hwritten
  | savedataDir =>
    have hdirectory : optional (s.get .savedataDir) = s.plugins.savedataDir :=
      optional_getD hs.savedataDir (Option.isSome_map.symm.trans hkey) _
    have hwritten : s.Written (s.get .savedataDir) .savedataDir _ := .savedataDir
    rwa [hdirectory] at hwritten

/-- What is shown of an optional key that is not set is read as a value. -/
theorem isSome_of_written_get (h : s.Written (s.get key) key s) : (s.value? key).isSome := by
  have hset := set_eq_ok_iff.mpr h
  cases key with
  | policyPath =>
    rw [value?, Option.isSome_map]
    exact isSome_of_optional_getD (by decide +kernel) (congrArg (·.policy.path) (Except.ok.inj hset))
  | sourceDir =>
    rw [value?, Option.isSome_map]
    exact isSome_of_optional_getD (by decide +kernel) (congrArg (·.plugins.sourceDir) (Except.ok.inj hset))
  | savedataDir =>
    rw [value?, Option.isSome_map]
    exact isSome_of_optional_getD (by decide +kernel) (congrArg (·.plugins.savedataDir) (Except.ok.inj hset))
  | _ => rfl

/-! Changes in place. -/

/-- The change of a key in place comes to the settings that the change gives, or to a fault and the settings before
    it. -/
theorem assignKey_run (s : Settings) (key : SettingsKey) (text : String) :
    (assignKey key text).run.run s = match s.set key text with
      | .ok changed => (.ok (), changed)
      | .error fault => (.error fault, s) := by
  cases key with
  | program =>
    rw [set_program, assignKey]
    cases (Text.trim text.toList).isEmpty <;> rfl
  | emitDebugSymbols =>
    rw [set, assignKey]
    cases readBool .emitDebugSymbols text <;> rfl
  | reuseStagedReferences =>
    rw [set, assignKey]
    cases readBool .reuseStagedReferences text <;> rfl
  | _ => rfl

theorem assign_eq (s : Settings) (name text : String) :
    s.assign name text = match (SettingsKey.ofName name).bind (s.set · text) with
      | .ok changed => (.ok (), changed)
      | .error fault => (.error fault, s) := by
  rw [assign]
  cases SettingsKey.ofName name with
  | error fault => rfl
  | ok key => exact assignKey_run s key text

/-- Changes settings in place, one after another, whether a change ends with a fault or not. -/
def assignAll (s : Settings) (calls : List (String × String)) : Settings :=
  calls.foldl (fun s call => (s.assign call.1 call.2).2) s

/-- A change in place is made, or it leaves the settings as they are. -/
theorem assign_cases (s : Settings) (name text : String) :
    (∃ key s', key.name = name ∧ s.Written text key s' ∧ s.assign name text = (.ok (), s')) ∨
      ∃ fault, s.assign name text = (.error fault, s) := by
  rw [assign_eq]
  cases hname : SettingsKey.ofName name with
  | error fault => exact Or.inr ⟨fault, rfl⟩
  | ok key =>
    rw [Except.bind]
    cases hset : s.set key text with
    | error fault => exact Or.inr ⟨fault, rfl⟩
    | ok s' => exact Or.inl ⟨key, s', SettingsKey.ofName_eq_ok_iff.mp hname, set_eq_ok_iff.mp hset, rfl⟩

theorem assign_eq_ok_iff {key : SettingsKey} : s.assign key.name text = (.ok (), s') ↔ s.Written text key s' := by
  rw [assign_eq, SettingsKey.ofName_name, Except.bind, ← set_eq_ok_iff]
  cases s.set key text <;> simp

theorem Canonical.assign (hs : s.Canonical) (name text : String) : (s.assign name text).2.Canonical := by
  rcases s.assign_cases name text with ⟨key, s', _, hwritten, hassign⟩ | ⟨fault, hassign⟩
  · rw [hassign]
    exact hwritten.canonical hs
  · rw [hassign]
    exact hs

theorem Canonical.assignAll (hs : s.Canonical) (calls : List (String × String)) : (s.assignAll calls).Canonical := by
  induction calls generalizing s with
  | nil => exact hs
  | cons call rest ih => exact ih (hs.assign call.1 call.2)

/-- Settings that come from the standard ones by any changes, of which some may have ended with a fault. A change that
    ends with a fault leaves them as they are, and one that is made changes the value of its own key only. To change a
    key to what is shown of it is made and changes nothing, exactly for the keys that have a value: all except for
    optional ones that are not set. -/
theorem assign_lossless (calls : List (String × String)) (name text : String) :
    let s := standard.assignAll calls
    (∀ fault, (s.assign name text).1 = .error fault → (s.assign name text).2 = s) ∧
    ((s.assign name text).1 = .ok () → ∃ key, key.name = name ∧
      ∀ other, other ≠ key → (s.assign name text).2.value? other = s.value? other) ∧
    ∀ key, (s.value? key).isSome ↔ s.assign key.name (s.get key) = (.ok (), s) := by
  intro s
  have hs : s.Canonical := standard_canonical.assignAll calls
  refine ⟨fun fault hfault => ?_, fun hmade => ?_, fun key => ?_⟩
  · rcases s.assign_cases name text with ⟨_, _, _, _, hassign⟩ | ⟨_, hassign⟩
    · rw [hassign] at hfault
      cases hfault
    · rw [hassign]
  · rcases s.assign_cases name text with ⟨key, s', hname, hwritten, hassign⟩ | ⟨_, hassign⟩
    · rw [hassign]
      exact ⟨key, hname, fun other hother => hwritten.value?_eq hother⟩
    · rw [hassign] at hmade
      cases hmade
  · rw [assign_eq_ok_iff]
    exact ⟨hs.written_get, isSome_of_written_get⟩

example :
    (standard.assignAll [("compiler.references", " a b,, c "), ("policy.path", " ")]).list.map (·.2) =
      [defaultCompiler, "-nologo", "a b, c", "true", "true", "(built-in reference policy)", "(default)",
        "(default)"] := by
  decide +kernel

end Settings

end PluginHost
