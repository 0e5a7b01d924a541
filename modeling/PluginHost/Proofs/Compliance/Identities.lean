import PluginHost.Compliance.Verify
import PluginHost.Proofs.Disk.Siblings
import PluginHost.Proofs.Savedata.Placement
/-!
What plugins are called.

A plugin is called by its path below the root. The path is written with slashes only, which backslashes become too,
although they can stand in names. Main statement: `identities_distinguish`.

Paths are texts here. A file can have a name whose bytes are no text; what such a plugin is called is the lossy form
of its path, under which two names may come to one, and nothing is said of that.
-/

namespace PluginHost

namespace Path

variable {base path rest : String} {c : Char}

/-! What is left of a path below a base. -/

theorem filter_dropWhile_idle (parts : List (List Char)) :
    (parts.dropWhile isIdle).filter (fun s => !isIdle s) = parts.filter fun s => !isIdle s := by
  induction parts with
  | nil => rfl
  | cons first others ih =>
    by_cases hidle : isIdle first = true
    · rw [List.dropWhile_cons_of_pos hidle, ih, List.filter_cons_of_neg (by simp [hidle])]
    · rw [List.dropWhile_cons_of_neg hidle]

/-- The components after some others are those of the segments after the last of them. -/
theorem drop_scan {isFirst : Bool} {parts others : List (List Char)} {n : Nat} {last : Component}
    (h : ((scan isFirst parts).take n).getLast? = some (last, others)) :
    (scan isFirst parts).drop n = scan false others ∧ others <:+ parts := by
  induction parts generalizing isFirst n with
  | nil => simp [scan] at h
  | cons s more ih =>
    rw [scan] at h ⊢
    split at h
    · cases n with
      | zero => simp at h
      | succ n =>
        rw [List.take_succ_cons, List.getLast?_cons] at h
        rw [List.drop_succ_cons]
        cases hbehind : ((scan false more).take n).getLast? with
        | none =>
          rw [hbehind] at h
          cases h
          refine ⟨?_, List.suffix_cons _ _⟩
          rcases List.take_eq_nil_iff.mp (List.getLast?_eq_none_iff.mp hbehind) with hn | hnil
          · rw [hn, List.drop_zero]
          · rw [hnil, List.drop_nil]
        | some next =>
          rw [hbehind] at h
          cases h
          obtain ⟨hdrop, hsuffix⟩ := ih hbehind
          exact ⟨hdrop, hsuffix.trans (List.suffix_cons _ _)⟩
    · obtain ⟨hdrop, hsuffix⟩ := ih h
      exact ⟨hdrop, hsuffix.trans (List.suffix_cons _ _)⟩

/-- Written anew without what is idle at its ends, a path that begins below another has its steps alone. -/
theorem components_ofSegments_trimmed {parts : List (List Char)} (hslash : ∀ s ∈ parts, '/' ∉ s) :
    lead (ofSegments (dropIdleEnd (parts.dropWhile isIdle))) = [] ∧
      steps (ofSegments (dropIdleEnd (parts.dropWhile isIdle))) = parts.filter fun s => !isIdle s := by
  have hfilter := filter_dropIdleEnd (parts.dropWhile isIdle)
  rw [filter_dropWhile_idle] at hfilter
  have hbegins : dropIdleEnd (parts.dropWhile isIdle) <+: parts.dropWhile isIdle := List.rdropWhile_prefix isIdle _
  cases htrimmed : dropIdleEnd (parts.dropWhile isIdle) with
  | nil =>
    rw [htrimmed] at hfilter
    exact ⟨rfl, hfilter⟩
  | cons first others =>
    rw [htrimmed] at hfilter hbegins
    have hsub : ∀ s ∈ first :: others, '/' ∉ s := fun s hs =>
      hslash s ((List.dropWhile_sublist _).mem (hbegins.subset hs))
    have hsegments : segments (ofSegments (first :: others)) = first :: others :=
      segments_ofSegments (List.cons_ne_nil _ _) hsub
    have hidle : isIdle first = false := by
      obtain ⟨more, hmore⟩ := hbegins
      have hhead := List.head?_dropWhile_not isIdle parts
      simpa [← hmore] using hhead
    exact ⟨lead_eq_nil hsegments hidle, by rw [steps, hsegments, hfilter]⟩

theorem eq_empty_of_segments (h : segments path = [[]]) : path = "" := by
  have hback := ofSegments_segments path
  rw [h] at hback
  exact hback.symm

/-- A path starts in the same way without what is idle at its end. -/
theorem lead_ofTrimmed (path : String) :
    lead (ofTrimmed (isAbsolute path) (trimEnd (segments path))) = lead path := by
  by_cases hempty : path = ""
  · subst hempty
    rfl
  obtain ⟨first, others, hsegments⟩ := List.exists_cons_of_ne_nil (segments_ne_nil path)
  have hfirst : isAbsolute path = true ↔ first = [] := by
    rw [isAbsolute_iff, hsegments]
    cases others with
    | nil =>
      have hne : first ≠ [] := by
        rintro rfl
        exact hempty (eq_empty_of_segments hsegments)
      simp [hne]
    | cons second more => simp
  have hslash : ∀ s ∈ first :: dropIdleEnd others, '/' ∉ s := fun s hs =>
    not_mem_of_mem_segments (mem_trimEnd (hsegments ▸ hs : s ∈ trimEnd (segments path)))
  have habsolute := isAbsolute_ofTrimmed hslash hfirst
  rw [hsegments, trimEnd, lead, lead, habsolute]
  cases hroot : isAbsolute path with
  | true => rfl
  | false =>
    have hkept := segments_ofSegments (List.cons_ne_nil _ _) hslash
    simp only [ofTrimmed, Bool.false_and, if_neg Bool.false_ne_true, hkept, hsegments, List.head?_cons]

theorem components_ofTrimmed (path : String) :
    components (ofTrimmed (isAbsolute path) (trimEnd (segments path))) = components path := by
  have hslash : ∀ s ∈ trimEnd (segments path), '/' ∉ s := fun s hs => not_mem_of_mem_segments (mem_trimEnd hs)
  have hne : trimEnd (segments path) ≠ [] := by
    obtain ⟨first, others, hsegments⟩ := List.exists_cons_of_ne_nil (segments_ne_nil path)
    rw [hsegments, trimEnd]
    exact List.cons_ne_nil _ _
  rw [components_eq, components_eq path, lead_ofTrimmed, steps_ofTrimmed hne hslash, filter_trimEnd, steps]

/-- What is left of a path below a base has the components that are left. -/
theorem components_of_stripBase? (h : stripBase? base path = some rest) :
    components path = components base ++ components rest ∧ (components base ≠ [] → lead rest = []) := by
  rw [stripBase?] at h
  split at h
  · next hprefix =>
    rw [List.isPrefixOf_iff_prefix] at hprefix
    have hcomponents : components path = components base ++ (components path).drop (components base).length :=
      (List.prefix_iff_eq_append.mp hprefix).symm
    split at h
    · next hnone =>
      cases h
      have hbase : components base = [] := by
        rcases List.take_eq_nil_iff.mp (List.getLast?_eq_none_iff.mp hnone) with hlength | hnil
        · exact List.length_eq_zero_iff.mp hlength
        · rw [hnil] at hprefix
          exact List.prefix_nil.mp hprefix
      rw [components_ofTrimmed, hbase]
      exact ⟨rfl, fun hne => absurd rfl hne⟩
    · next last others hlast =>
      cases h
      obtain ⟨hdrop, hsuffix⟩ := drop_scan hlast
      have hslash : ∀ s ∈ others, '/' ∉ s := fun s hs => not_mem_of_mem_segments (hsuffix.subset hs)
      obtain ⟨hlead, hsteps⟩ := components_ofSegments_trimmed hslash
      refine ⟨?_, fun _ => hlead⟩
      rw [components_eq (ofSegments _), hlead, hsteps, List.nil_append, ← scan_false, ← hdrop, List.map_drop]
      exact hcomponents
  · cases h

theorem exists_stripBase?_eq_some_iff :
    (∃ rest, stripBase? base path = some rest) ↔ components base <+: components path := by
  rw [stripBase?, ← List.isPrefixOf_iff_prefix]
  split
  · next hprefix =>
    refine iff_of_true ?_ hprefix
    split <;> exact ⟨_, rfl⟩
  · next hprefix => exact iff_of_false (fun ⟨_, h⟩ => by cases h) hprefix

theorem eq_empty_of_components (h : components path = []) : path = "" := by
  rw [components_eq, List.append_eq_nil_iff, List.map_eq_nil_iff] at h
  obtain ⟨hlead, hsteps⟩ := h
  obtain ⟨first, others, hsegments⟩ := List.exists_cons_of_ne_nil (segments_ne_nil path)
  have hrelative : ¬ isAbsolute path = true := by
    intro habsolute
    rw [lead, if_pos habsolute] at hlead
    cases hlead
  have hcurrent : first ≠ ['.'] := by
    rintro rfl
    rw [lead, if_neg hrelative, hsegments, List.head?_cons, if_pos rfl] at hlead
    cases hlead
  have hidle : isIdle first = true := by
    simpa using List.filter_eq_nil_iff.mp hsteps first (hsegments ▸ List.mem_cons_self)
  have hfirst : first = [] := by simpa [isIdle, hcurrent] using hidle
  cases others with
  | nil => exact eq_empty_of_segments (hfirst ▸ hsegments)
  | cons second more => exact absurd (isAbsolute_iff.mpr ⟨second, more, hfirst ▸ hsegments⟩) hrelative

/-! The characters of a path. -/

theorem mem_splitOnP_iff (separates : Char → Bool) (hc : separates c = false) {text : List Char} :
    c ∈ text ↔ ∃ part ∈ text.splitOnP separates, c ∈ part := by
  induction text with
  | nil => simp [List.splitOnP_nil]
  | cons first others ih =>
    rw [List.mem_cons, ih, List.splitOnP_cons_eq_if_modifyHead]
    split
    · next hfirst =>
      have hne : c ≠ first := by
        rintro rfl
        exact absurd hfirst (by simp [hc])
      simp [hne]
    · obtain ⟨head, tail, hsplit⟩ := List.exists_cons_of_ne_nil (List.splitOnP_ne_nil separates others)
      simp [hsplit, or_assoc]

theorem name?_ofStep (s : List Char) :
    (Component.ofStep s).name? = if s = ['.', '.'] then none else some (String.ofList s) := by
  rw [Component.ofStep]
  split <;> rfl

theorem mem_names_iff {name : String} :
    name ∈ names path ↔ ∃ s ∈ segments path, isIdle s = false ∧ s ≠ ['.', '.'] ∧ String.ofList s = name := by
  simp [names_eq_filterMap, steps, name?_ofStep, and_assoc]

/-- A character that is neither a slash nor a dot stands in a name. -/
theorem mem_toList_iff (hslash : c ≠ '/') (hdot : c ≠ '.') :
    c ∈ path.toList ↔ ∃ name ∈ names path, c ∈ name.toList := by
  rw [mem_splitOnP_iff (· = '/') (by simpa using hslash), ← segments]
  constructor
  · rintro ⟨s, hs, hc⟩
    refine ⟨String.ofList s, mem_names_iff.mpr ⟨s, hs, ?_, ?_, rfl⟩, by rwa [String.toList_ofList]⟩
    · rw [Bool.eq_false_iff]
      intro hidle
      have hcases : s = [] ∨ s = ['.'] := by simpa [isIdle] using hidle
      rcases hcases with rfl | rfl <;> simp [hdot] at hc
    · rintro rfl
      simp [hdot] at hc
  · rintro ⟨name, hname, hc⟩
    obtain ⟨s, hs, -, -, rfl⟩ := mem_names_iff.mp hname
    exact ⟨s, hs, by rwa [String.toList_ofList] at hc⟩

end Path

namespace Submission

open PluginHost.Path SavedataStore

variable {root path p q : String}

theorem identity_ofPath (root : Option String) (path : String) :
    (ofPath root path).identity = identityOf root path := by
  rw [ofPath]
  split <;> rfl

/-- The names on the way from the root to a path below it. -/
def namesBelow (root path : String) : List String :=
  ((components path).drop (components root).length).filterMap Component.name?

/-- A path below the root without a backslash in any name below the root. -/
structure PlainBelow (root path : String) : Prop where
  below : components root <+: components path
  no_backslash : ∀ name ∈ namesBelow root path, '\\' ∉ name.toList

theorem replaceChar_eq_self {old new : Char} {s : List Char} (h : old ∉ s) : Text.replaceChar old new s = s := by
  rw [Text.replaceChar]
  conv_rhs => rw [← List.map_id s]
  refine List.map_congr_left fun c hc => if_neg ?_
  rintro rfl
  exact h hc

theorem not_mem_replaceChar {old new : Char} (hne : old ≠ new) (s : List Char) : old ∉ Text.replaceChar old new s := by
  rw [Text.replaceChar, List.mem_map]
  rintro ⟨c, -, hc⟩
  split at hc
  · exact hne hc.symm
  · next hold => exact hold hc

/-- A plugin below the root is called by a text that is written for what is left of its path. -/
theorem exists_identityOf_eq (hbelow : components root <+: components path) :
    ∃ rest, identityOf (some root) path = String.ofList (Text.replaceChar '\\' '/' rest.toList) ∧
      components path = components root ++ components rest ∧ (components root ≠ [] → lead rest = []) ∧
      namesBelow root path = names rest := by
  obtain ⟨rest, hrest⟩ := exists_stripBase?_eq_some_iff.mpr hbelow
  obtain ⟨hcomponents, hlead⟩ := components_of_stripBase? hrest
  refine ⟨rest, ?_, hcomponents, hlead, ?_⟩
  · rw [identityOf, Option.bind_some, hrest, Option.getD_some]
  · rw [namesBelow, hcomponents, List.drop_left, names]

/-- The components of what a plugin is called lead from the root to it exactly if no name on the way has a
    backslash. -/
theorem components_identityOf_iff (hbelow : components root <+: components path) :
    components path = components root ++ components (identityOf (some root) path) ↔
      ∀ name ∈ namesBelow root path, '\\' ∉ name.toList := by
  obtain ⟨rest, hidentity, hcomponents, -, hnames⟩ := exists_identityOf_eq hbelow
  have hplain : '\\' ∉ rest.toList ↔ ∀ name ∈ namesBelow root path, '\\' ∉ name.toList := by
    rw [hnames, mem_toList_iff (by decide) (by decide)]
    simp
  rw [hcomponents, List.append_cancel_left_eq, ← hplain, hidentity]
  constructor
  · intro hsame hmem
    obtain ⟨name, hname, hc⟩ := (mem_toList_iff (by decide) (by decide)).mp hmem
    rw [names, hsame] at hname
    have hagain := (mem_toList_iff (by decide) (by decide)).mpr ⟨name, hname, hc⟩
    rw [String.toList_ofList] at hagain
    exact not_mem_replaceChar (by decide) _ hagain
  · intro hmem
    rw [replaceChar_eq_self hmem, String.ofList_toList]

/-- An identity that is accepted for a document is its names, with a `.` before them or not. -/
theorem components_of_isInside {a : String} (h : isInside a = true) :
    components a = lead a ++ (names a).map .normal ∧ (lead a = [] ∨ lead a = [.current]) := by
  obtain ⟨-, hrelative, hparent⟩ := of_isInside h
  have hsteps : (steps a).map Component.ofStep = (names a).map .normal := by
    have hname : ∀ s ∈ steps a, Component.ofStep s = .normal (String.ofList s) := fun s hs => by
      rw [Component.ofStep, if_neg (hparent s (List.mem_filter.mp hs).1)]
    have hnames : names a = (steps a).map String.ofList := by
      rw [names_eq_filterMap, ← List.filterMap_eq_map]
      exact List.filterMap_congr fun s hs => by rw [hname s hs]; rfl
    rw [hnames, List.map_map]
    exact List.map_congr_left hname
  refine ⟨by rw [components_eq, hsteps], ?_⟩
  rw [lead, hrelative, if_neg Bool.false_ne_true]
  split
  · exact Or.inr rfl
  · exact Or.inl rfl

namespace PlainBelow

theorem identity (h : PlainBelow root path) :
    components path = components root ++ components (identityOf (some root) path) ∧
      (components root ≠ [] → lead (identityOf (some root) path) = []) := by
  have hcomponents := (components_identityOf_iff h.below).mpr h.no_backslash
  obtain ⟨rest, hidentity, -, hlead, hnames⟩ := exists_identityOf_eq h.below
  have hplain : '\\' ∉ rest.toList := by
    rw [mem_toList_iff (by decide) (by decide), ← hnames]
    rintro ⟨name, hname, hc⟩
    exact h.no_backslash name hname hc
  rw [replaceChar_eq_self hplain, String.ofList_toList] at hidentity
  exact ⟨hcomponents, hidentity ▸ hlead⟩

/-- Two plugins with the same names in what they are called differ at most in a `.` that one of them starts with. -/
theorem apart (hp : PlainBelow root p) (hq : PlainBelow root q) (hdiffer : components p ≠ components q)
    (hinsideP : isInside (identityOf (some root) p) = true) (hinsideQ : isInside (identityOf (some root) q) = true)
    (hnames : names (identityOf (some root) p) = names (identityOf (some root) q)) :
    root = "" ∧ (components p = .current :: components q ∨ components q = .current :: components p) := by
  obtain ⟨hpartsP, hleadP⟩ := components_of_isInside hinsideP
  obtain ⟨hpartsQ, hleadQ⟩ := components_of_isInside hinsideQ
  have hp' := hp.identity.1
  have hq' := hq.identity.1
  rw [hpartsP] at hp'
  rw [hpartsQ, ← hnames] at hq'
  by_cases hroot : components root = []
  · refine ⟨eq_empty_of_components hroot, ?_⟩
    rw [hp', hq'] at hdiffer ⊢
    rw [hroot]
    rcases hleadP with hP | hP <;> rcases hleadQ with hQ | hQ <;> simp [hP, hQ] at hdiffer ⊢
  · rw [hp', hq', hp.identity.2 hroot, hq.identity.2 hroot] at hdiffer
    exact absurd rfl hdiffer

end PlainBelow

/-- Below a root, what a plugin is called has the components that lead from the root to it exactly if no name on the
    way has a backslash. Two such plugins with different paths are called differently. They have different documents
    too, unless their root is empty and they differ in nothing but a `.` that one of them starts with. This is about
    paths that are texts. -/
theorem identities_distinguish (root : String) :
    (∀ path, components root <+: components path →
      (components path = components root ++ components (ofPath (some root) path).identity ↔
        ∀ name ∈ namesBelow root path, '\\' ∉ name.toList)) ∧
    ∀ p q, PlainBelow root p → PlainBelow root q → components p ≠ components q →
      (ofPath (some root) p).identity ≠ (ofPath (some root) q).identity ∧
      ∀ store pathP pathQ, documentPath store (ofPath (some root) p).identity = .ok pathP →
        documentPath store (ofPath (some root) q).identity = .ok pathQ → components pathP = components pathQ →
        root = "" ∧ (components p = .current :: components q ∨ components q = .current :: components p) := by
  simp only [identity_ofPath]
  refine ⟨fun path => components_identityOf_iff, fun p q hp hq hdiffer => ⟨fun hsame => hdiffer ?_, ?_⟩⟩
  · rw [hp.identity.1, hq.identity.1, hsame]
  · intro store pathP pathQ hpathP hpathQ hsame
    have hnames := names_eq_of_components hpathP hpathQ hsame
    exact hp.apart hq hdiffer (documentPath_eq_ok_iff.mp hpathP).1 (documentPath_eq_ok_iff.mp hpathQ).1 hnames

end Submission

/-! A file in a directory, and a file next to the directory whose name is the path to the first one with a backslash. -/

namespace Backslash

open PluginHost.Path Submission SavedataStore

theorem plainBelow_inner : PlainBelow "/plugins" "/plugins/zoom/near.pwmod" := ⟨by decide +kernel, by decide +kernel⟩

theorem plainBelow_outer : PlainBelow "/plugins" "/plugins/./zoom_near.pwmod" := ⟨by decide +kernel, by decide +kernel⟩

/-- With an underscore in place of the slash, the two have a report and a document each. -/
theorem underscore_distinguishes :
    PlainBelow "/plugins" "/plugins/zoom/near.pwmod" ∧ PlainBelow "/plugins" "/plugins/./zoom_near.pwmod" ∧
      components "/plugins/zoom/near.pwmod" ≠ components "/plugins/./zoom_near.pwmod" ∧
      (ofPath (some "/plugins") "/plugins/zoom/near.pwmod").identity ≠
        (ofPath (some "/plugins") "/plugins/./zoom_near.pwmod").identity ∧
      documentPath "/data" (ofPath (some "/plugins") "/plugins/zoom/near.pwmod").identity =
        .ok "/data/zoom/near.pwmod.toml" ∧
      documentPath "/data" (ofPath (some "/plugins") "/plugins/./zoom_near.pwmod").identity =
        .ok "/data/zoom_near.pwmod.toml" ∧
      components "/data/zoom/near.pwmod.toml" ≠ components "/data/zoom_near.pwmod.toml" := by
  have hdiffer : components "/plugins/zoom/near.pwmod" ≠ components "/plugins/./zoom_near.pwmod" := by decide +kernel
  have hinner : documentPath "/data" (ofPath (some "/plugins") "/plugins/zoom/near.pwmod").identity =
      .ok "/data/zoom/near.pwmod.toml" := by decide +kernel
  have houter : documentPath "/data" (ofPath (some "/plugins") "/plugins/./zoom_near.pwmod").identity =
      .ok "/data/zoom_near.pwmod.toml" := by decide +kernel
  obtain ⟨hidentities, hdocuments⟩ :=
    (identities_distinguish "/plugins").2 _ _ plainBelow_inner plainBelow_outer hdiffer
  refine ⟨plainBelow_inner, plainBelow_outer, hdiffer, hidentities, hinner, houter, fun hsame => ?_⟩
  exact absurd (hdocuments _ _ _ hinner houter hsame).1 (by decide)

/-- Two files with one report and one document. -/
theorem backslash_confuses :
    components "/plugins" <+: components "/plugins/zoom/near.pwmod" ∧
      components "/plugins" <+: components "/plugins/zoom\\near.pwmod" ∧
      components "/plugins/zoom/near.pwmod" ≠ components "/plugins/zoom\\near.pwmod" ∧
      (ofPath (some "/plugins") "/plugins/zoom/near.pwmod").identity = "zoom/near.pwmod" ∧
      (ofPath (some "/plugins") "/plugins/zoom\\near.pwmod").identity = "zoom/near.pwmod" ∧
      documentPath "/data" "zoom/near.pwmod" = .ok "/data/zoom/near.pwmod.toml" := by
  decide +kernel

end Backslash

end PluginHost
