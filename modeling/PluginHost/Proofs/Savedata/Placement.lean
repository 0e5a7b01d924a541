import PluginHost.Proofs.Savedata.Documents
/-!
Where documents lie below their root.

An identity is accepted by its components, and its document is found by a text that is joined to the root and
written on. The two agree: the components of the document are those of the root and then names alone, so no
document lies outside the root, and two of them are one only if the names of their identities are the same.
-/

namespace PluginHost

namespace Path

variable {base path : String}

/-- The component that a path starts with, if that is none of its steps. -/
def lead (path : String) : List Component :=
  if isAbsolute path then [.root] else if (segments path).head? = some ['.'] then [.current] else []

namespace Component

/-- The component that a step is. -/
def ofStep (step : List Char) : Component :=
  if step = ['.', '.'] then .parent else .normal (String.ofList step)

/-- The step that a component is, if it is one. -/
def step? : Component → Option (List Char)
  | .root | .current => none
  | .parent => some ['.', '.']
  | .normal name => some name.toList

theorem step?_ofStep (step : List Char) : (ofStep step).step? = some step := by
  rw [ofStep]
  split
  · next h => rw [h]; rfl
  · exact congrArg some String.toList_ofList

/-- The component is a name or a `.`. -/
def StaysBelow (c : Component) : Prop := c = .current ∨ ∃ name, c = .normal name

def name? : Component → Option String
  | .normal name => some name
  | _ => none

end Component

open Component

/-- The names of a path, in order. -/
def names (path : String) : List String := (components path).filterMap name?

theorem component?_of_not_idle {segment : List Char} (h : isIdle segment = false) (isFirst : Bool)
    (rest : List (List Char)) : component? isFirst segment rest = some (ofStep segment) := by
  unfold component?
  split
  · cases h
  · cases h
  · rfl
  · next hparent => rw [ofStep, if_neg hparent]

theorem component?_of_idle {segment : List Char} (h : isIdle segment = true) (rest : List (List Char)) :
    component? false segment rest = none := by
  rw [isIdle, Bool.or_eq_true, decide_eq_true_eq, decide_eq_true_eq] at h
  rcases h with rfl | rfl <;> rfl

theorem scan_false (parts : List (List Char)) :
    (scan false parts).map (·.1) = (parts.filter fun s => !isIdle s).map ofStep := by
  induction parts with
  | nil => rfl
  | cons s rest ih =>
    rw [scan]
    cases hidle : isIdle s with
    | false =>
      rw [component?_of_not_idle hidle, List.filter_cons_of_pos (by simp [hidle]), List.map_cons, List.map_cons, ← ih]
    | true => rw [component?_of_idle hidle, List.filter_cons_of_neg (by simp [hidle]), ← ih]

/-- The components of a path are what it starts with and its steps. -/
theorem components_eq (path : String) : components path = lead path ++ (steps path).map ofStep := by
  obtain ⟨first, rest, hsegments⟩ := List.exists_cons_of_ne_nil (segments_ne_nil path)
  have habsolute : isAbsolute path = true ↔ first = [] ∧ rest ≠ [] := by
    rw [isAbsolute_iff, hsegments]
    cases rest <;> simp
  rw [components, steps, lead, hsegments, scan]
  cases hidle : isIdle first with
  | false =>
    have hne : first ≠ [] ∧ first ≠ ['.'] := by simpa [isIdle] using hidle
    have hrelative : ¬ isAbsolute path = true := fun h => hne.1 (habsolute.mp h).1
    rw [component?_of_not_idle hidle, if_neg hrelative, if_neg (by simpa using hne.2),
      List.filter_cons_of_pos (by simp [hidle]), List.map_cons, List.map_cons, scan_false]
    rfl
  | true =>
    rw [List.filter_cons_of_neg (by simp [hidle]), ← scan_false]
    rw [isIdle, Bool.or_eq_true, decide_eq_true_eq, decide_eq_true_eq] at hidle
    rcases hidle with rfl | rfl
    · cases rest with
      | nil => simp [habsolute, component?]
      | cons second others => simp [habsolute, component?]
    · simp [habsolute, component?]

/-- What is found in the components but not in the root and in a `.` is found in the steps. -/
theorem filterMap_components {α : Type} {f : Component → Option α} (hroot : f .root = none)
    (hcurrent : f .current = none) (path : String) :
    (components path).filterMap f = (steps path).filterMap fun s => f (ofStep s) := by
  have hlead : (lead path).filterMap f = [] := by
    rw [lead]
    split
    · rw [List.filterMap_cons_none hroot, List.filterMap_nil]
    · split
      · rw [List.filterMap_cons_none hcurrent, List.filterMap_nil]
      · rfl
  rw [components_eq, List.filterMap_append, hlead, List.filterMap_map, List.nil_append]
  rfl

theorem steps_eq_filterMap (path : String) : steps path = (components path).filterMap step? := by
  rw [filterMap_components rfl rfl]
  simp only [step?_ofStep, List.filterMap_some]

theorem names_eq_filterMap (path : String) : names path = (steps path).filterMap fun s => (ofStep s).name? :=
  filterMap_components rfl rfl path

theorem lead_of_relative (h : isAbsolute path = false) : ∀ c ∈ lead path, c = .current := by
  rw [lead, h, if_neg Bool.false_ne_true]
  split
  · exact fun c hc => List.mem_singleton.mp hc
  · exact fun c hc => absurd hc List.not_mem_nil

/-- A path whose first segment is not idle starts with a step. -/
theorem lead_eq_nil {first : List Char} {others : List (List Char)} (hsegments : segments path = first :: others)
    (hidle : isIdle first = false) : lead path = [] := by
  have hne : first ≠ [] ∧ first ≠ ['.'] := by simpa [isIdle] using hidle
  have hrelative : ¬ isAbsolute path = true := by
    rw [isAbsolute_iff, hsegments]
    rintro ⟨second, more, heq⟩
    exact hne.1 (List.cons.inj heq).1
  rw [lead, if_neg hrelative, hsegments, List.head?_cons, if_neg (by simpa using hne.2)]

/-- A path below another starts as that one does. -/
theorem lead_join (hne : base ≠ "") (hrelative : isAbsolute path = false) : lead (join base path) = lead base := by
  obtain ⟨init, hinit, hbase, hjoin⟩ := segments_join hne
  have hhead : (segments (join base path)).head? = (segments base).head? := by
    rw [hjoin hrelative, List.head?_append_of_ne_nil _ hinit]
    rcases hbase with hbase | hbase
    · rw [hbase]
    · rw [hbase, List.head?_append_of_ne_nil _ hinit]
  rw [lead, lead, isAbsolute_join hrelative, hhead]

end Path

namespace SavedataStore

open PluginHost.Path

variable {root path a b : String}

theorem isInside_iff : isInside a = true ↔ a ≠ "" ∧ ∀ c ∈ components a, c.StaysBelow := by
  rw [isInside, Bool.and_eq_true, List.all_eq_true]
  refine and_congr ?_ (forall₂_congr fun c _ => ?_)
  · simp
  · cases c <;> simp [Component.StaysBelow]

theorem documentPath_eq_ok_iff :
    documentPath root a = .ok path ↔ isInside a = true ∧ path = join root a ++ ".toml" := by
  rw [documentPath]
  split
  · next h => simp [h, eq_comm]
  · next h => simp [h]

/-- The last step to a document is a name with the ending of documents. -/
theorem exists_documentSteps_eq (identity : String) :
    ∃ before last, documentSteps identity = before ++ [last ++ documentEnding.toList] := by
  obtain ⟨init, last, hsegments⟩ := exists_segments_eq identity
  exact ⟨_, last, steps_append hsegments (by decide) (ending_isName last).1⟩

theorem ofStep_documentEnding (last : List Char) :
    Component.ofStep (last ++ documentEnding.toList) = .normal (String.ofList last ++ documentEnding) := by
  rw [Component.ofStep, if_neg (ending_isName last).2, String.ofList_append, String.ofList_toList]

/-- The components of a document are those of the root and then names. Only below a root that is empty a `.` can
    stand before them. -/
theorem components_documentPath (h : documentPath root a = .ok path) :
    ∃ current, components path = components root ++ current ++ (documentSteps a).map Component.ofStep ∧
      ∀ c ∈ current, c = .current := by
  obtain ⟨hinside, hpath⟩ := documentPath_eq_ok_iff.mp h
  obtain ⟨hne, hrelative, -⟩ := of_isInside hinside
  have hjoined : path = join root (a ++ documentEnding) := hpath.trans (join_append hne documentEnding)
  have hdocument : isAbsolute (a ++ documentEnding) = false := (isAbsolute_append hne _).trans hrelative
  have hsteps : steps path = steps root ++ documentSteps a := (documentPath_isDocument h).steps
  by_cases hroot : root = ""
  · subst hroot
    have habsolute : isAbsolute path = false := by rw [hjoined, isAbsolute_join hdocument]; rfl
    refine ⟨lead path, ?_, lead_of_relative habsolute⟩
    rw [components_eq path, hsteps]
    rfl
  · refine ⟨[], ?_, fun c hc => absurd hc List.not_mem_nil⟩
    rw [components_eq path, components_eq root, hsteps, hjoined, lead_join hroot hdocument, List.map_append,
      List.append_nil, List.append_assoc]

/-- A document lies below the root: after the components of the root there are only names and `.`, and the last of
    them is a file name with the ending of documents. -/
theorem documentPath_below (h : documentPath root a = .ok path) :
    ∃ way stem, components path = components root ++ way ++ [.normal (stem ++ ".toml")] ∧
      ∀ c ∈ way, c.StaysBelow := by
  obtain ⟨current, hcomponents, hcurrent⟩ := components_documentPath h
  obtain ⟨before, last, hsteps⟩ := exists_documentSteps_eq a
  have hnames := (documentPath_isDocument h).names
  rw [hsteps] at hcomponents hnames
  refine ⟨current ++ before.map Component.ofStep, String.ofList last, ?_, ?_⟩
  · rw [hcomponents, List.map_append, List.map_singleton, ofStep_documentEnding, ← List.append_assoc,
      ← List.append_assoc]
    rfl
  · refine List.forall_mem_append.mpr ⟨fun c hc => Or.inl (hcurrent c hc), fun c hc => ?_⟩
    obtain ⟨s, hs, rfl⟩ := List.mem_map.mp hc
    have hparent : s ≠ ['.', '.'] := (hnames s (List.mem_append_left _ hs)).2
    exact Or.inr ⟨String.ofList s, by rw [Component.ofStep, if_neg hparent]⟩

/-- Two identities whose documents are one have the same names. -/
theorem names_eq_of_components {pathA pathB : String} (ha : documentPath root a = .ok pathA)
    (hb : documentPath root b = .ok pathB) (hsame : components pathA = components pathB) : names a = names b := by
  have hsteps : steps root ++ documentSteps a = steps root ++ documentSteps b := by
    rw [← (documentPath_isDocument ha).steps, ← (documentPath_isDocument hb).steps, steps_eq_filterMap,
      steps_eq_filterMap, hsame]
  have hidentities := steps_eq_of_documentSteps (List.append_cancel_left hsteps)
  rw [names_eq_filterMap, names_eq_filterMap, hidentities]

/-- An identity has a document exactly if it is not empty and all its components are names or `.`. The document then
    lies strictly below the root, without a `..` and without a new start, in a file with the ending of documents.
    Two identities have one document only if their names are the same. -/
theorem documents_below_and_apart (root : String) :
    (∀ identity, (∃ path, documentPath root identity = .ok path) ↔
      identity ≠ "" ∧ ∀ c ∈ components identity, c.StaysBelow) ∧
    (∀ identity path, documentPath root identity = .ok path →
      ∃ way stem, components path = components root ++ way ++ [.normal (stem ++ ".toml")] ∧
        (∀ c ∈ way, c.StaysBelow) ∧ fileName? path = some (stem ++ ".toml")) ∧
    (∀ a b pathA pathB, documentPath root a = .ok pathA → documentPath root b = .ok pathB →
      components pathA = components pathB → names a = names b) := by
  refine ⟨fun identity => ?_, fun identity path h => ?_, fun a b pathA pathB => names_eq_of_components⟩
  · simp only [documentPath_eq_ok_iff, isInside_iff, exists_and_left, exists_eq, and_true]
  · obtain ⟨way, stem, hcomponents, hway⟩ := documentPath_below h
    refine ⟨way, stem, hcomponents, hway, ?_⟩
    rw [fileName?, hcomponents, List.getLast?_concat]

/-- Two spellings of one identity. -/
theorem documents_below_and_apart_two_spellings :
    documentPath "/data" "mods/zoom.cs" = .ok "/data/mods/zoom.cs.toml" ∧
      documentPath "/data" "./mods//zoom.cs" = .ok "/data/./mods//zoom.cs.toml" ∧
      components "/data/mods/zoom.cs.toml" = components "/data/./mods//zoom.cs.toml" ∧
      (∃ way stem, components "/data/mods/zoom.cs.toml" = components "/data" ++ way ++ [.normal (stem ++ ".toml")] ∧
        (∀ c ∈ way, c.StaysBelow) ∧ fileName? "/data/mods/zoom.cs.toml" = some (stem ++ ".toml")) ∧
      names "mods/zoom.cs" = names "./mods//zoom.cs" := by
  have hplain : documentPath "/data" "mods/zoom.cs" = .ok "/data/mods/zoom.cs.toml" := by decide +kernel
  have hlong : documentPath "/data" "./mods//zoom.cs" = .ok "/data/./mods//zoom.cs.toml" := by decide +kernel
  have hsame : components "/data/mods/zoom.cs.toml" = components "/data/./mods//zoom.cs.toml" := by decide +kernel
  obtain ⟨-, hbelow, hapart⟩ := documents_below_and_apart "/data"
  exact ⟨hplain, hlong, hsame, hbelow _ _ hplain, hapart _ _ _ _ hplain hlong hsame⟩

end SavedataStore

end PluginHost
