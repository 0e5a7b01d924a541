import Mathlib.Data.List.Basic
import Mathlib.Data.List.Induction
import PluginHost.Path
import PluginHost.Proofs.Text.Cut
/-!
Absolute paths of names, and the steps of a path: its names and the `..` between them, in order.

A directory finds what is in it by name, and a path writes names with slashes in front. What a path leads to
depends on its steps and on whether it is absolute. Main statements: what the segments and components of a path of
names are, and that the file name of any path is a name; a path joined to another takes the steps of both, and the
parent of a path takes some of its first steps.
-/

namespace PluginHost.Path

variable {names : List String} {name : String}

/-- What can be the name of something in a directory. -/
structure IsName (name : String) : Prop where
  ne_empty : name.toList ≠ []
  ne_current : name.toList ≠ ['.']
  ne_parent : name.toList ≠ ['.', '.']
  no_slash : '/' ∉ name.toList

/-- Names that lead to something below the root. -/
structure IsPlace (names : List String) : Prop where
  ne_nil : names ≠ []
  isName : ∀ n ∈ names, IsName n

theorem IsPlace.singleton (hname : IsName name) : IsPlace [name] :=
  ⟨List.cons_ne_nil _ _, List.forall_mem_singleton.mpr hname⟩

theorem IsPlace.cons (hname : IsName name) (hplace : IsPlace names) : IsPlace (name :: names) :=
  ⟨List.cons_ne_nil _ _, List.forall_mem_cons.mpr ⟨hname, hplace.isName⟩⟩

/-- The path of the names that lead to something from the root. -/
def ofNames (names : List String) : String := String.ofList (names.flatMap fun n => '/' :: n.toList)

theorem toList_ofNames_append (names : List String) (name : String) :
    (ofNames (names ++ [name])).toList = (ofNames names).toList ++ '/' :: name.toList := by
  simp only [ofNames, String.toList_ofList, List.flatMap_append, List.flatMap_singleton]

theorem isAbsolute_ofNames (hne : names ≠ []) : isAbsolute (ofNames names) = true := by
  cases names with
  | nil => exact absurd rfl hne
  | cons first rest =>
    rw [isAbsolute, ofNames, String.toList_ofList, List.flatMap_cons]
    rfl

theorem isEmpty_ofNames (hne : names ≠ []) : (ofNames names).isEmpty = false := by
  have habsolute := isAbsolute_ofNames hne
  rw [Bool.eq_false_iff, ne_eq, String.isEmpty_iff]
  intro hempty
  rw [hempty] at habsolute
  cases habsolute

theorem getLast?_ofNames_ne_slash (hplace : IsPlace names) : (ofNames names).toList.getLast? ≠ some '/' := by
  obtain ⟨init, last, rfl⟩ := (List.eq_nil_or_concat' names).resolve_left hplace.ne_nil
  have hname := hplace.isName last (by simp)
  rw [toList_ofNames_append, List.getLast?_append_of_ne_nil _ (List.cons_ne_nil _ _),
    List.getLast?_cons_of_ne_nil hname.ne_empty]
  exact fun h => hname.no_slash (List.mem_of_getLast? h)

theorem segments_ofNames (hnames : ∀ n ∈ names, IsName n) :
    segments (ofNames names) = [] :: names.map String.toList := by
  induction names using List.reverseRecOn with
  | nil => exact List.splitOnP_nil
  | append_singleton names name ih =>
    have hname : name.toList.splitOnP (· = '/') = [name.toList] :=
      List.splitOnP_eq_singleton fun c hc => decide_eq_false fun hslash =>
        (hnames name (List.mem_append_right _ List.mem_cons_self)).no_slash (hslash ▸ hc)
    have hbefore : (ofNames names).toList.splitOnP (· = '/') = [] :: names.map String.toList :=
      ih fun n hn => hnames n (List.mem_append_left _ hn)
    rw [segments, toList_ofNames_append, List.splitOnP_append_cons _ _ (by decide), hname, hbefore]
    simp only [List.map_append, List.map_cons, List.map_nil, List.cons_append]

theorem component?_name (hname : IsName name) (isFirst : Bool) (rest : List (List Char)) :
    component? isFirst name.toList rest = some (.normal name) := by
  unfold component?
  split
  · next h => exact absurd h hname.ne_empty
  · next h => exact absurd h hname.ne_current
  · next h => exact absurd h hname.ne_parent
  · rw [String.ofList_toList]

theorem scan_names (hnames : ∀ n ∈ names, IsName n) :
    (scan false (names.map String.toList)).map (·.1) = names.map .normal := by
  induction names with
  | nil => rfl
  | cons n rest ih =>
    rw [List.forall_mem_cons] at hnames
    rw [List.map_cons, scan, component?_name hnames.1]
    simp only [List.map_cons, ih hnames.2]

theorem components_ofNames (hplace : IsPlace names) :
    components (ofNames names) = .root :: names.map .normal := by
  have hrest : (names.map String.toList).isEmpty = false := by simpa using hplace.ne_nil
  rw [components, segments_ofNames hplace.isName, scan, component?, hrest]
  exact congrArg (Component.root :: ·) (scan_names hplace.isName)

/-- A name after a path of names. -/
theorem join_ofNames (hplace : IsPlace names) (hname : IsName name) :
    join (ofNames names) name = ofNames (names ++ [name]) := by
  obtain ⟨hne, hnames⟩ := hplace
  have habsolute : isAbsolute name = false := decide_eq_false fun hhead =>
    hname.no_slash (List.mem_of_head? hhead)
  have hslash := getLast?_ofNames_ne_slash ⟨hne, hnames⟩
  rw [join, habsolute, isEmpty_ofNames hne, Bool.or_self, if_neg Bool.false_ne_true, if_neg hslash]
  apply String.toList_injective
  rw [toList_ofNames_append, String.toList_append, String.toList_append, List.append_assoc]
  rfl

theorem not_mem_of_mem_segments {path : String} {segment : List Char} (h : segment ∈ segments path) :
    '/' ∉ segment :=
  Text.not_mem_of_mem_splitOnP h

theorem component?_eq_normal {isFirst : Bool} {segment : List Char} {rest : List (List Char)}
    (h : component? isFirst segment rest = some (.normal name)) :
    name.toList = segment ∧ segment ≠ [] ∧ segment ≠ ['.'] ∧ segment ≠ ['.', '.'] := by
  unfold component? at h
  split at h
  · split at h <;> cases h
  · split at h <;> cases h
  · cases h
  · next hempty hcurrent hparent =>
    cases h
    exact ⟨String.toList_ofList, hempty, hcurrent, hparent⟩

theorem mem_scan {isFirst : Bool} {parts : List (List Char)} {c : Component}
    (h : c ∈ (scan isFirst parts).map (·.1)) :
    ∃ isFirst segment rest, segment ∈ parts ∧ component? isFirst segment rest = some c := by
  induction parts generalizing isFirst with
  | nil => cases h
  | cons segment rest ih =>
    rw [scan] at h
    split at h
    · next found hfound =>
      rcases List.mem_cons.mp h with rfl | hrest
      · exact ⟨_, segment, rest, List.mem_cons_self, hfound⟩
      · obtain ⟨first, s, after, hs, hc⟩ := ih hrest
        exact ⟨first, s, after, List.mem_cons_of_mem _ hs, hc⟩
    · obtain ⟨first, s, after, hs, hc⟩ := ih h
      exact ⟨first, s, after, List.mem_cons_of_mem _ hs, hc⟩

theorem isName_of_fileName? {path : String} (h : fileName? path = some name) : IsName name := by
  unfold fileName? at h
  split at h
  · next found hlast =>
    cases h
    obtain ⟨_, segment, _, hsegment, hcomponent⟩ := mem_scan (List.mem_of_getLast? hlast)
    obtain ⟨rfl, hempty, hcurrent, hparent⟩ := component?_eq_normal hcomponent
    exact ⟨hempty, hcurrent, hparent, not_mem_of_mem_segments hsegment⟩
  · cases h

theorem ofNames_injective {others : List String} (hplace : IsPlace names) (hothers : IsPlace others)
    (h : ofNames names = ofNames others) : names = others := by
  have hsegments := congrArg segments h
  rw [segments_ofNames hplace.isName, segments_ofNames hothers.isName, List.cons.injEq] at hsegments
  exact List.map_inj_right (fun _ _ => String.toList_inj.mp) |>.mp hsegments.2

/-! Steps of a path. -/

variable {base path : String}

/-- The segments that are not idle. -/
def steps (path : String) : List (List Char) := (segments path).filter fun s => !isIdle s

theorem segments_ne_nil (path : String) : segments path ≠ [] := List.splitOnP_ne_nil _ _

theorem segments_of_toList {before after : List Char} (h : path.toList = before ++ '/' :: after) :
    segments path = segments (String.ofList before) ++ segments (String.ofList after) := by
  rw [segments, segments, segments, h, String.toList_ofList, String.toList_ofList]
  exact List.splitOnP_append_cons _ _ (by decide)

theorem parent_mem_scan {isFirst : Bool} {parts : List (List Char)} (h : ['.', '.'] ∈ parts) :
    Component.parent ∈ (scan isFirst parts).map (·.1) := by
  induction parts generalizing isFirst with
  | nil => cases h
  | cons s rest ih =>
    rcases List.mem_cons.mp h with rfl | hrest
    · exact List.mem_cons_self
    · rw [scan]
      split
      · exact List.mem_cons_of_mem _ (ih hrest)
      · exact ih hrest

/-- A `..` anywhere is a component. -/
theorem parent_mem_components (h : ['.', '.'] ∈ segments path) : Component.parent ∈ components path :=
  parent_mem_scan h

/-! Joined paths. -/

/-- Below a base that is not empty, a path is written after the segments of the base. A slash at the end of the
    base makes an empty segment, which the path takes the place of. -/
theorem segments_join (hne : base ≠ "") :
    ∃ init, init ≠ [] ∧ (segments base = init ∨ segments base = init ++ [[]]) ∧
      ∀ {path}, isAbsolute path = false → segments (join base path) = init ++ segments path := by
  have hempty : ¬ base.isEmpty = true := fun h => hne (String.isEmpty_iff.mp h)
  by_cases hslash : base.toList.getLast? = some '/'
  · obtain ⟨before, hbefore⟩ := List.getLast?_eq_some_iff.mp hslash
    have hbase : segments base = segments (String.ofList before) ++ [[]] := segments_of_toList hbefore
    refine ⟨segments (String.ofList before), segments_ne_nil _, Or.inr hbase, fun {path} hrelative => ?_⟩
    have hjoined : (base ++ path).toList = before ++ '/' :: path.toList := by
      rw [String.toList_append, hbefore, List.append_assoc, List.singleton_append]
    rw [join, hrelative, Bool.false_or, if_neg hempty, if_pos hslash, segments_of_toList hjoined,
      String.ofList_toList]
  · refine ⟨segments base, segments_ne_nil _, Or.inl rfl, fun {path} hrelative => ?_⟩
    have hjoined : (base ++ "/" ++ path).toList = base.toList ++ '/' :: path.toList := by
      rw [String.toList_append, String.toList_append, List.append_assoc]
      rfl
    rw [join, hrelative, Bool.false_or, if_neg hempty, if_neg hslash, segments_of_toList hjoined,
      String.ofList_toList, String.ofList_toList]

theorem steps_join (hrelative : isAbsolute path = false) : steps (join base path) = steps base ++ steps path := by
  by_cases hempty : base = ""
  · rw [hempty, join, hrelative]
    rfl
  · obtain ⟨init, _, hbase, hjoin⟩ := segments_join hempty
    rw [steps, hjoin hrelative, List.filter_append, steps]
    rcases hbase with hbase | hbase
    · rw [hbase]
      rfl
    · rw [hbase, List.filter_append, steps]
      simp [isIdle]

theorem isAbsolute_join (hrelative : isAbsolute path = false) : isAbsolute (join base path) = isAbsolute base := by
  rw [join, hrelative, Bool.false_or]
  by_cases hempty : base.isEmpty = true
  · rw [if_pos hempty, hrelative, String.isEmpty_iff.mp hempty]
    rfl
  · have hne : base.toList ≠ [] := fun h => hempty (String.isEmpty_iff.mpr (String.toList_eq_nil_iff.mp h))
    obtain ⟨first, rest, hfirst⟩ := List.exists_cons_of_ne_nil hne
    rw [if_neg hempty]
    split <;> simp [isAbsolute, hfirst]

theorem isAbsolute_append (hne : path ≠ "") (ext : String) : isAbsolute (path ++ ext) = isAbsolute path := by
  have hchars : path.toList ≠ [] := fun h => hne (String.toList_eq_nil_iff.mp h)
  obtain ⟨first, rest, hfirst⟩ := List.exists_cons_of_ne_nil hchars
  simp [isAbsolute, hfirst]

/-- What is written after a path is written after its last part. -/
theorem join_append (hne : path ≠ "") (ext : String) : join base path ++ ext = join base (path ++ ext) := by
  rw [join, join, isAbsolute_append hne]
  split
  · rfl
  · split
    · exact String.append_assoc
    · simp only [String.append_assoc]

/-! Paths with something written after them that has no slash. -/

theorem splitOnP_append {p : Char → Bool} {text more : List Char} {init : List (List Char)} {last : List Char}
    (hsplit : text.splitOnP p = init ++ [last]) (hmore : ∀ c ∈ more, p c = false) :
    (text ++ more).splitOnP p = init ++ [last ++ more] := by
  induction text generalizing init last with
  | nil =>
    rw [List.splitOnP_nil] at hsplit
    obtain ⟨rfl, hlast⟩ := List.append_eq_singleton_iff.mp hsplit.symm |>.resolve_right (by simp)
    cases hlast
    exact List.splitOnP_eq_singleton hmore
  | cons c rest ih =>
    obtain ⟨before, part, hrest⟩ :=
      (List.eq_nil_or_concat' (rest.splitOnP p)).resolve_left (List.splitOnP_ne_nil _ _)
    rw [List.splitOnP_cons_eq_if_modifyHead, hrest] at hsplit
    rw [List.cons_append, List.splitOnP_cons_eq_if_modifyHead, ih hrest]
    split
    · next hc =>
      rw [if_pos hc, ← List.cons_append] at hsplit
      obtain ⟨rfl, hlast⟩ := List.append_inj' hsplit rfl
      cases hlast
      rfl
    · next hc =>
      rw [if_neg hc] at hsplit
      cases before with
      | nil =>
        have honly : [] ++ [c :: part] = init ++ [last] := hsplit
        obtain ⟨rfl, hlast⟩ := List.append_inj' honly rfl
        cases hlast
        rfl
      | cons first others =>
        have hmany : (c :: first) :: others ++ [part] = init ++ [last] := hsplit
        obtain ⟨rfl, hlast⟩ := List.append_inj' hmany rfl
        cases hlast
        rfl

theorem segments_append {init : List (List Char)} {last : List Char} {ext : String}
    (hsegments : segments path = init ++ [last]) (hext : '/' ∉ ext.toList) :
    segments (path ++ ext) = init ++ [last ++ ext.toList] := by
  rw [segments, String.toList_append]
  exact splitOnP_append hsegments fun c hc => decide_eq_false fun heq => hext (heq ▸ hc)

/-! Parents. -/

theorem segments_ofSegments {parts : List (List Char)} (hne : parts ≠ []) (hslash : ∀ s ∈ parts, '/' ∉ s) :
    segments (ofSegments parts) = parts := by
  rw [segments, ofSegments, String.toList_ofList]
  exact List.splitOn_intercalate '/' hslash hne

theorem isAbsolute_iff : isAbsolute path = true ↔ ∃ second rest, segments path = [] :: second :: rest := by
  rw [isAbsolute, decide_eq_true_iff, segments]
  cases path.toList with
  | nil => simp [List.splitOnP_nil]
  | cons c cs =>
    obtain ⟨second, rest, hrest⟩ := List.exists_cons_of_ne_nil (List.splitOnP_ne_nil (· = '/') cs)
    rw [List.splitOnP_cons_eq_if_modifyHead, hrest]
    by_cases hc : c = '/' <;> simp [hc]

theorem root_mem_components (h : isAbsolute path = true) : Component.root ∈ components path := by
  obtain ⟨second, rest, hsegments⟩ := isAbsolute_iff.mp h
  rw [components, hsegments, scan]
  exact List.mem_cons_self

/-- A path of slashes is the root. -/
theorem isAbsolute_of_blank (hne : path.isEmpty = false) (hblank : ∀ s ∈ segments path, s = []) :
    isAbsolute path = true := by
  rcases hsegments : segments path with _ | ⟨first, _ | ⟨second, rest⟩⟩
  · exact absurd hsegments (segments_ne_nil path)
  · have hfirst : first = [] := hblank first (by simp [hsegments])
    have hback : ['/'].intercalate (segments path) = path.toList := List.intercalate_splitOn '/'
    rw [hsegments, hfirst] at hback
    rw [String.toList_eq_nil_iff.mp hback.symm] at hne
    cases hne
  · have hfirst : first = [] := hblank first (by simp [hsegments])
    exact isAbsolute_iff.mpr ⟨second, rest, hfirst ▸ hsegments⟩

theorem filter_dropIdleEnd (parts : List (List Char)) :
    (dropIdleEnd parts).filter (fun s => !isIdle s) = parts.filter fun s => !isIdle s := by
  induction parts using List.reverseRecOn with
  | nil => rfl
  | append_singleton init last ih =>
    rw [dropIdleEnd, List.reverse_append, List.reverse_singleton, List.singleton_append, List.filter_append]
    by_cases hidle : isIdle last = true
    · rw [List.dropWhile_cons_of_pos hidle, ← dropIdleEnd, ih]
      simp [hidle]
    · rw [List.dropWhile_cons_of_neg hidle, List.reverse_cons, List.reverse_reverse, List.filter_append]

theorem filter_trimEnd (parts : List (List Char)) :
    (trimEnd parts).filter (fun s => !isIdle s) = parts.filter fun s => !isIdle s := by
  cases parts with
  | nil => rfl
  | cons first rest => rw [trimEnd, List.filter_cons, List.filter_cons, filter_dropIdleEnd]

theorem mem_trimEnd {parts : List (List Char)} {s : List Char} (h : s ∈ trimEnd parts) : s ∈ parts := by
  cases parts with
  | nil => exact h
  | cons first rest =>
    rcases List.mem_cons.mp h with rfl | hrest
    · exact List.mem_cons_self
    · rw [dropIdleEnd, List.mem_reverse] at hrest
      exact List.mem_cons_of_mem _ (List.mem_reverse.mp ((List.dropWhile_sublist _).mem hrest))

theorem steps_ofTrimmed {absolute : Bool} {parts : List (List Char)} (hne : parts ≠ [])
    (hslash : ∀ s ∈ parts, '/' ∉ s) : steps (ofTrimmed absolute parts) = parts.filter fun s => !isIdle s := by
  rw [ofTrimmed]
  split
  · next hroot =>
    simp only [Bool.and_eq_true, decide_eq_true_eq] at hroot
    rw [hroot.2]
    rfl
  · rw [steps, segments_ofSegments hne hslash]

theorem isAbsolute_ofTrimmed {absolute : Bool} {first : List Char} {rest : List (List Char)}
    (hslash : ∀ s ∈ first :: rest, '/' ∉ s) (hfirst : absolute = true ↔ first = []) :
    isAbsolute (ofTrimmed absolute (first :: rest)) = absolute := by
  rw [ofTrimmed]
  split
  · next hroot =>
    simp only [Bool.and_eq_true] at hroot
    rw [hroot.1]
    rfl
  · next hroot =>
    rw [Bool.eq_iff_iff, isAbsolute_iff, segments_ofSegments (List.cons_ne_nil _ _) hslash, hfirst]
    cases rest with
    | nil =>
      simp only [List.cons.injEq, reduceCtorEq, and_false, exists_false, false_iff]
      intro hempty
      exact hroot (by simp [hfirst.mpr hempty, hempty])
    | cons second others => simp

/-- The parent of a path takes some of its first steps, from the same start. -/
theorem steps_parent? {parent : String} (h : parent? path = some parent) :
    parent = "" ∨ steps parent <+: steps path ∧ isAbsolute parent = isAbsolute path := by
  unfold parent? at h
  split at h
  · cases h
  · cases h
  · cases h
    exact Or.inl rfl
  · rcases htrimmed : trimEnd (segments path) with _ | ⟨first, _ | ⟨second, rest⟩⟩
    · rw [htrimmed] at h
      cases h
      exact Or.inl rfl
    · rw [htrimmed] at h
      cases h
      exact Or.inl rfl
    · rw [htrimmed] at h
      cases h
      have hkept : ∀ s ∈ first :: dropIdleEnd (second :: rest).dropLast, '/' ∉ s := by
        intro s hs
        have hmem : s ∈ first :: (second :: rest).dropLast := mem_trimEnd hs
        have htrim : s ∈ trimEnd (segments path) := htrimmed ▸ List.dropLast_subset (first :: second :: rest) hmem
        exact not_mem_of_mem_segments (mem_trimEnd htrim)
      rw [List.dropLast_cons_cons, trimEnd]
      refine Or.inr ⟨?_, isAbsolute_ofTrimmed hkept ?_⟩
      · have hsteps := filter_trimEnd (first :: (second :: rest).dropLast)
        rw [trimEnd] at hsteps
        rw [steps_ofTrimmed (List.cons_ne_nil _ _) hkept, hsteps, steps, ← filter_trimEnd (segments path), htrimmed]
        exact (List.dropLast_prefix (first :: second :: rest)).filter _
      · obtain ⟨head, tail, hsegments⟩ := List.exists_cons_of_ne_nil (segments_ne_nil path)
        rw [hsegments, trimEnd, List.cons.injEq] at htrimmed
        obtain ⟨rfl, htail⟩ := htrimmed
        cases tail with
        | nil => cases htail
        | cons next others => rw [isAbsolute_iff, hsegments]; simp

end PluginHost.Path
