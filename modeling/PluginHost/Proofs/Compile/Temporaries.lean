import PluginHost.Proofs.Compile.StagingArea
import PluginHost.Proofs.Disk.Walk
/-!
What paths find on two disks that differ only in directories that the paths keep away from, and what temporary
directories change on a disk.

Where a path leads, and what is read there, is decided by the kinds of the places that it goes through: which
of them are directories, and what the bytes of a file are. Main statements: a path that does not name any of
some temporary directories reads the same on disks that are the same outside of these; whether a temporary
directory of a new name can be made does not depend on the name, and what is done in one is not seen outside of it.
-/

namespace PluginHost

/-- What an entry is, without what is in it if it is a directory. -/
inductive Kind where
  | file (bytes : List UInt8)
  | directory
deriving DecidableEq

namespace Entry

def kind : Entry → Kind
  | file bytes => .file bytes
  | directory _ => .directory

variable {new e : Entry} {p q : List String}

/-- What is put somewhere changes the kinds of no place above it. -/
theorem kind_find?_put (h : ¬ p <+: q) : (find? q (put new p e)).map kind = (find? q e).map kind := by
  fun_induction put new p e generalizing q with
  | case1 e => exact absurd List.nil_prefix h
  | case2 name entries =>
    cases q with
    | nil => rfl
    | cons other others =>
      have hne : other ≠ name := fun heq => h (heq ▸ List.cons_prefix_cons.mpr ⟨rfl, List.nil_prefix⟩)
      rw [find?, find?, Assoc.get?_insert, if_neg hne]
  | case3 name rest entries hrest child hchild ih =>
    cases q with
    | nil => rfl
    | cons other others =>
      rw [find?, find?, Assoc.get?_insert]
      split
      · next heq =>
        subst heq
        rw [hchild, Option.bind_some, Option.bind_some,
          ih fun hbegins => h (List.cons_prefix_cons.mpr ⟨rfl, hbegins⟩)]
      · rfl
  | case4 => rfl
  | case5 => rfl

theorem kind_find?_remove (h : ¬ p <+: q) : (find? q (remove p e)).map kind = (find? q e).map kind := by
  fun_induction remove p e generalizing q with
  | case1 name entries =>
    cases q with
    | nil => rfl
    | cons other others =>
      have hne : other ≠ name := fun heq => h (heq ▸ List.cons_prefix_cons.mpr ⟨rfl, List.nil_prefix⟩)
      rw [find?, find?, Assoc.get?_filter_ne, if_neg hne]
  | case2 name rest entries hrest child hchild ih =>
    cases q with
    | nil => rfl
    | cons other others =>
      rw [find?, find?, Assoc.get?_insert]
      split
      · next heq =>
        subst heq
        rw [hchild, Option.bind_some, Option.bind_some,
          ih fun hbegins => h (List.cons_prefix_cons.mpr ⟨rfl, hbegins⟩)]
      · rfl
  | case3 => rfl
  | case4 => rfl

end Entry

namespace Disk

open Entry PluginHost.Path

variable {d d' d'' : Disk} {names others : String → Prop} {name path : String} {p q : List String}
  {s : List Char} {segments : List (List Char)} {new : Entry}

def kindAt? (d : Disk) (place : List String) : Option Kind := (d.entryAt? place).map Entry.kind

theorem kindAt?_eq_none_iff : d.kindAt? p = none ↔ d.entryAt? p = none := Option.map_eq_none_iff

theorem kindAt?_eq_directory_iff : d.kindAt? p = some .directory ↔ d.HasDirectory p := by
  rw [kindAt?, HasDirectory]
  rcases d.entryAt? p with _ | (_ | _) <;> simp [kind]

theorem kindAt?_put (hne : p ≠ []) (h : ¬ p <+: q) : (d.modify (put new p)).kindAt? q = d.kindAt? q := by
  rw [kindAt?, entryAt?_modify (put_directory _ hne)]
  exact kind_find?_put h

theorem kindAt?_remove (h : ¬ p <+: q) : (d.modify (remove p)).kindAt? q = d.kindAt? q := by
  rw [kindAt?, entryAt?_modify (remove_directory _ _)]
  exact kind_find?_remove h

/-- A step depends on the kind of the place that it starts from. -/
theorem step_eq (d : Disk) (p : List String) (s : List Char) :
    d.step p s = match d.kindAt? p with
      | none => .error .notFound
      | some (.file _) => .error .notADirectory
      | some .directory => onward p s := by
  unfold step kindAt?
  rcases d.entryAt? p with _ | (_ | _) <;> rfl

/-! Temporary directories of given names, and what lies outside of them. -/

/-- The place is not that of a temporary directory of one of the names, nor in such a directory. -/
def Outside (names : String → Prop) (place : List String) : Prop := ∀ name, names name → ¬ ["tmp", name] <+: place

theorem outside_nil (names : String → Prop) : Outside names [] :=
  fun _ _ hbegins => absurd (List.prefix_nil.mp hbegins) (by simp)

theorem outside_tmp (names : String → Prop) : Outside names ["tmp"] := by
  intro name _ hbegins
  have hlength := hbegins.length_le
  simp at hlength

theorem Outside.dropLast (h : Outside names p) : Outside names p.dropLast :=
  fun name hname hbegins => h name hname (hbegins.trans (List.dropLast_prefix _))

theorem Outside.concat (h : Outside names p) (hname : ¬ names name) : Outside names (p ++ [name]) := by
  intro other hother hbegins
  rcases List.prefix_concat_iff.mp hbegins with heq | hbegins
  · have hlast : other = name := by simpa using congrArg List.getLast? heq
    exact hname (hlast ▸ hother)
  · exact h other hother hbegins

/-- The path does not name any of some temporary directories. -/
def Unmentioned (names : String → Prop) (path : String) : Prop :=
  ∀ s ∈ Path.segments path, ¬ names (String.ofList s)

theorem outside_of_onward (hp : Outside names p) (hs : ¬ names (String.ofList s))
    (h : onward p s = .ok q) : Outside names q := by
  unfold onward at h
  split at h
  · cases h
    exact hp
  · cases h
    exact hp
  · cases h
    exact hp.dropLast
  · split at h
    · cases h
    · cases h
      exact hp.concat hs

/-- Two disks are the same outside of temporary directories of some names. -/
structure SameOutside (names : String → Prop) (d d' : Disk) : Prop where
  working : d'.working = d.working
  kind : ∀ {q}, Outside names q → d'.kindAt? q = d.kindAt? q

namespace SameOutside

theorem refl (names : String → Prop) (d : Disk) : SameOutside names d d := ⟨rfl, fun _ => rfl⟩

theorem trans (h : SameOutside names d d') (h' : SameOutside names d' d'') : SameOutside names d d'' :=
  ⟨h'.working.trans h.working, fun hq => (h'.kind hq).trans (h.kind hq)⟩

theorem mono (h : SameOutside names d d') (hnames : ∀ name, names name → others name) : SameOutside others d d' :=
  ⟨h.working, fun hq => h.kind fun name hname => hq name (hnames name hname)⟩

theorem walk (h : SameOutside names d d') (hp : Outside names p)
    (hsegments : ∀ s ∈ segments, ¬ names (String.ofList s)) :
    d'.walk p segments = d.walk p segments ∧ ∀ q, d.walk p segments = .ok q → Outside names q := by
  induction segments generalizing p with
  | nil =>
    refine ⟨rfl, fun q hq => ?_⟩
    cases hq
    exact hp
  | cons s rest ih =>
    rw [List.forall_mem_cons] at hsegments
    rw [Disk.walk, Disk.walk, List.foldlM_cons, List.foldlM_cons, step_eq d', h.kind hp, ← step_eq d]
    cases hstep : d.step p s with
    | error fault =>
      refine ⟨rfl, fun q hq => ?_⟩
      cases hq
    | ok next => exact ih (outside_of_onward hp hsegments.1 (step_eq_ok_iff.mp hstep).2) hsegments.2

theorem place (h : SameOutside names d d') (hworking : Outside names d.working) (hpath : Unmentioned names path) :
    d'.place path = d.place path ∧ ∀ q, d.place path = .ok q → Outside names q := by
  have hstart : Outside names (d.start path) := by
    rw [start]
    split
    · exact outside_nil names
    · exact hworking
  have hsegments : ∀ s ∈ ((Path.segments path).reverse.dropWhile List.isEmpty).reverse,
      ¬ names (String.ofList s) := fun s hs =>
    hpath s (List.mem_reverse.mp ((List.dropWhile_sublist _).mem (List.mem_reverse.mp hs)))
  obtain ⟨hwalk, houtside⟩ := h.walk hstart hsegments
  refine ⟨?_, fun q hq => houtside q (place_eq_ok_iff.mp hq).2⟩
  rw [Disk.place, Disk.place, h.working]
  exact congrArg (fun r => if path.toList.contains '\x00' then Except.error IoFault.nulInPath
    else if path.isEmpty then .error .notFound
    else if (Text.utf8 path.toList).length > maxPathBytes then .error .nameTooLong else r) hwalk

end SameOutside

/-- What is read depends on the kind of the place that the path leads to. -/
theorem read_eq (d : Disk) (path : String) :
    d.read path = (d.place path).bind fun q =>
      match d.kindAt? q with
      | some (.file bytes) => if namesDirectory path then .error .notADirectory else .ok bytes
      | some .directory => .error .isADirectory
      | none => .error .notFound := by
  rw [read, lookup]
  cases d.place path with
  | error fault => rfl
  | ok q =>
    simp only [bind, Except.bind, kindAt?]
    rcases d.entryAt? q with _ | (bytes | entries)
    · rfl
    · cases namesDirectory path <;> rfl
    · rfl

theorem SameOutside.read (h : SameOutside names d d') (hworking : Outside names d.working)
    (hpath : Unmentioned names path) : d'.read path = d.read path := by
  obtain ⟨hplace, houtside⟩ := h.place hworking hpath
  rw [read_eq, read_eq, hplace]
  cases hq : d.place path with
  | error fault => rfl
  | ok q =>
    simp only [Except.bind]
    rw [h.kind (houtside q hq)]

/-- A file is what can be read. -/
theorem isFile_eq_isOk_read (d : Disk) (path : String) : d.isFile path = (d.read path).isOk := by
  rw [isFile, read]
  rcases d.lookup path with fault | (bytes | entries) <;> rfl

/-! Paths of names that are one name longer than the place of a directory. -/

variable {other start : String} {first last n m : Nat} {bytes : List UInt8}

theorem onward_name_eq (hname : IsName name) (p : List String) :
    onward p name.toList =
      if (Text.utf8 name.toList).length > maxNameBytes then .error .nameTooLong else .ok (p ++ [name]) := by
  unfold onward
  split
  · next h => exact absurd h hname.ne_empty
  · next h => exact absurd h hname.ne_current
  · next h => exact absurd h hname.ne_parent
  · rw [String.ofList_toList]

/-- The names before the last one are followed first. -/
theorem place_ofNames_concat (hplace : IsPlace (p ++ [name])) :
    d.place (ofNames (p ++ [name])) =
      if (ofNames (p ++ [name])).toList.contains '\x00' then .error .nulInPath
      else if (Text.utf8 (ofNames (p ++ [name])).toList).length > maxPathBytes then .error .nameTooLong
      else (d.walk [] (p.map String.toList)).bind fun q => d.step q name.toList := by
  have hlast : ¬ name.toList.isEmpty = true := fun h =>
    (hplace.isName name (by simp)).ne_empty (List.isEmpty_iff.mp h)
  have hsegments : ((segments (ofNames (p ++ [name]))).reverse.dropWhile List.isEmpty).reverse =
      [] :: (p.map String.toList ++ [name.toList]) := by
    rw [segments_ofNames hplace.isName, List.map_append, List.map_singleton, ← List.cons_append,
      List.reverse_append, List.reverse_singleton, List.singleton_append, List.dropWhile_cons_of_neg hlast,
      List.reverse_cons, List.reverse_reverse]
  have hsteps : ([] :: (p.map String.toList ++ [name.toList])).foldlM d.step [] =
      (d.walk [] (p.map String.toList)).bind fun q => d.step q name.toList := by
    have hwalk : ([] :: (p.map String.toList ++ [name.toList])).foldlM d.step [] =
        (p.map String.toList ++ [name.toList]).foldlM d.step [] := rfl
    rw [hwalk, List.foldlM_append]
    simp only [List.foldlM_cons, List.foldlM_nil, bind_pure]
    rfl
  rw [Disk.place, isEmpty_ofNames hplace.ne_nil, isAbsolute_ofNames hplace.ne_nil, if_neg Bool.false_ne_true]
  simp only [hsegments, if_true, hsteps]

/-- The names of a directory are followed to it. -/
theorem walk_to_directory (hplace : IsPlace p) (hfits : Fits p) (h : d.HasDirectory p) :
    d.walk [] (p.map String.toList) = .ok p := by
  obtain ⟨init, name, rfl⟩ := (List.eq_nil_or_concat' p).resolve_left hplace.ne_nil
  have hparent := h.dropLast
  rw [List.dropLast_concat] at hparent
  exact (foldlM_step_names hplace.isName).mpr ⟨rfl, hfits.names, hparent⟩

/-! Names of temporary directories. -/

/-- How the names of temporary directories start. -/
def temporaryStarts : List String := ["patchwork-refs-", "patchwork-out-"]

def temporaryName (start : String) (n : Nat) : String := start ++ String.ofList (Text.ofNat n)

/-- The names of temporary directories that are made while their number goes from one to another. -/
def Between (first last : Nat) (name : String) : Prop :=
  ∃ start ∈ temporaryStarts, ∃ n, first ≤ n ∧ n < last ∧ name = temporaryName start n

theorem isName_temporaryName (hstart : start ∈ temporaryStarts) (n : Nat) : IsName (temporaryName start n) := by
  have hstarts : ∀ start ∈ temporaryStarts, 2 < start.toList.length ∧ '/' ∉ start.toList := by decide
  exact isName_temporary (hstarts start hstart).1 (hstarts start hstart).2 n

/-- No temporary directory has a dot in its name. -/
theorem dot_not_mem_temporaryName (hstart : start ∈ temporaryStarts) (n : Nat) :
    '.' ∉ (temporaryName start n).toList := by
  have hstarts : ∀ start ∈ temporaryStarts, '.' ∉ start.toList := by decide
  rw [temporaryName, String.toList_append, String.toList_ofList, List.mem_append]
  rintro (hmem | hmem)
  · exact hstarts start hstart hmem
  · exact absurd (Json.isDigit_of_mem_ofNat hmem) (by decide)

/-- The start and the number are told from the name. -/
theorem temporaryName_inj (hstart : start ∈ temporaryStarts) (hother : other ∈ temporaryStarts)
    (h : temporaryName start n = temporaryName other m) : start = other ∧ n = m := by
  have hstarts : ∀ s ∈ temporaryStarts, ∀ t ∈ temporaryStarts, s.toList <+: t.toList → s = t := by decide
  have hchars := congrArg String.toList h
  rw [temporaryName, temporaryName, String.toList_append, String.toList_append] at hchars
  have heq : start = other := by
    -- No start is the beginning of the other one.
    rcases List.prefix_or_prefix_of_prefix ⟨_, hchars⟩ (List.prefix_append other.toList _) with hbegins | hbegins
    · exact hstarts start hstart other hother hbegins
    · exact (hstarts other hother start hstart hbegins).symm
  subst heq
  exact ⟨rfl, Json.ofNat_injective (String.ofList_injective ((String.append_right_inj start).mp h))⟩

theorem Between.isName (h : Between first last name) : IsName name := by
  obtain ⟨start, hstart, n, _, _, rfl⟩ := h
  exact isName_temporaryName hstart n

theorem not_between_of_le (hstart : start ∈ temporaryStarts) (h : last ≤ n) :
    ¬ Between first last (temporaryName start n) := by
  rintro ⟨other, hother, m, _, hm, heq⟩
  have hnumber := (temporaryName_inj hstart hother heq).2
  omega

/-- No name stands for two numbers. -/
theorem Between.not_between {middle : Nat} (h : Between first middle name) : ¬ Between middle last name := by
  obtain ⟨start, hstart, n, _, hn, rfl⟩ := h
  rintro ⟨other, hother, m, hm, _, heq⟩
  have hnumber := (temporaryName_inj hstart hother heq).2
  omega

theorem Between.mono {last' : Nat} (h : Between first last name) (hle : last ≤ last') : Between first last' name := by
  obtain ⟨start, hstart, n, hfirst, hlast, hname⟩ := h
  exact ⟨start, hstart, n, hfirst, Nat.lt_of_lt_of_le hlast hle, hname⟩

/-! What is done in temporary directories. -/

/-- Nothing changes but temporary directories of some names and what is in them. -/
structure Touches (names : String → Prop) (d d' : Disk) : Prop where
  outside : SameOutside names d d'
  others : ∀ {name}, ¬ names name → d'.entryAt? ["tmp", name] = d.entryAt? ["tmp", name]

namespace Touches

theorem refl (names : String → Prop) (d : Disk) : Touches names d d := ⟨.refl names d, fun _ => rfl⟩

theorem trans (h : Touches names d d') (h' : Touches names d' d'') : Touches names d d'' :=
  ⟨h.outside.trans h'.outside, fun hname => (h'.others hname).trans (h.others hname)⟩

theorem mono (h : Touches names d d') (hnames : ∀ name, names name → others name) : Touches others d d' :=
  ⟨h.outside.mono hnames, fun hname => h.others fun hnot => hname (hnames _ hnot)⟩

end Touches

theorem apart_of_touched (hname : names name) (hbelow : ["tmp", name] <+: p) (hother : ¬ names other) :
    Apart p ["tmp", other] := by
  obtain ⟨rest, rfl⟩ := hbelow
  have hne : other ≠ name := by
    rintro rfl
    exact hother hname
  exact (apart_temporary hne).append rest

theorem not_prefix_of_outside (hname : names name) (hbelow : ["tmp", name] <+: p) (hq : Outside names q) :
    ¬ p <+: q := fun hbegins => hq name hname (hbelow.trans hbegins)

theorem working_modify (d : Disk) (f : Entry → Entry) : (d.modify f).working = d.working := by
  rw [modify]
  split <;> rfl

theorem temporaries_modify (d : Disk) (f : Entry → Entry) : (d.modify f).temporaries = d.temporaries := by
  rw [modify]
  split <;> rfl

theorem touches_put (hname : names name) (hbelow : ["tmp", name] <+: p) :
    Touches names d (d.modify (put new p)) where
  outside := by
    have hne : p ≠ [] := fun hp => by simp [hp] at hbelow
    exact ⟨working_modify _ _, fun hq => kindAt?_put hne (not_prefix_of_outside hname hbelow hq)⟩
  others hother := entryAt?_put_of_apart (apart_of_touched hname hbelow hother)

theorem touches_remove (hname : names name) (hbelow : ["tmp", name] <+: p) :
    Touches names d (d.modify (remove p)) where
  outside := ⟨working_modify _ _, fun hq => kindAt?_remove (not_prefix_of_outside hname hbelow hq)⟩
  others hother := entryAt?_remove_of_apart (apart_of_touched hname hbelow hother)

theorem touches_removeTree (hplace : IsName name) (hname : names name) :
    Touches names d (d.removeTree (ofNames ["tmp", name])) ∧
      (d.removeTree (ofNames ["tmp", name])).temporaries = d.temporaries := by
  rcases removeTree_ofNames (d := d) (isPlace_temporary hplace) with hremoved | ⟨hkept, _⟩
  · rw [hremoved]
    exact ⟨touches_remove hname List.prefix_rfl, temporaries_modify _ _⟩
  · rw [hkept]
    exact ⟨.refl _ _, rfl⟩

/-- A temporary directory of the name can be made, as far as the name goes. -/
structure IsNew (d : Disk) (name : String) : Prop where
  fits : Fits ["tmp", name]
  absent : d.entryAt? ["tmp", name] = none

/-- What keeps temporary directories from being made, if anything does. -/
def temporaryFault? (d : Disk) : Option IoFault :=
  match d.kindAt? ["tmp"] with
  | none => some .notFound
  | some (.file _) => some .notADirectory
  | some .directory => none

theorem hasDirectory_tmp (h : d.temporaryFault? = none) : d.HasDirectory ["tmp"] := by
  rw [← kindAt?_eq_directory_iff]
  rw [temporaryFault?] at h
  split at h
  · cases h
  · cases h
  · assumption

theorem SameOutside.temporaryFault? (h : SameOutside names d d') : d'.temporaryFault? = d.temporaryFault? := by
  rw [Disk.temporaryFault?, h.kind (outside_tmp names), ← Disk.temporaryFault?]

theorem fits_tmp : Fits ["tmp"] := ⟨by decide, by decide, by decide⟩

theorem place_temporary (hname : IsName name) (hfits : Fits ["tmp", name]) :
    d.place (ofNames ["tmp", name]) =
      match d.temporaryFault? with
      | some fault => .error fault
      | none => .ok ["tmp", name] := by
  have hnames : ∀ n ∈ [] ++ ["tmp"], IsName n := List.forall_mem_singleton.mpr isName_tmp
  have htmp : d.walk [] (["tmp"].map String.toList) = .ok ["tmp"] :=
    (foldlM_step_names hnames).mpr ⟨rfl, fits_tmp.names, d.root, rfl⟩
  have hplace : IsPlace (["tmp"] ++ [name]) := isPlace_temporary hname
  have hconcat := place_ofNames_concat (d := d) hplace
  rw [htmp] at hconcat
  have hshort := hfits.names name (by simp)
  rw [List.singleton_append, hfits.no_nul, if_neg Bool.false_ne_true, if_neg (Nat.not_lt.mpr hfits.path)] at hconcat
  rw [hconcat, Except.bind, step_eq, onward_name_eq hname, if_neg (Nat.not_lt.mpr hshort), temporaryFault?]
  rcases d.kindAt? ["tmp"] with _ | (_ | _) <;> rfl

/-- The disk with a temporary directory of the name that has just been made. -/
def withTemporary (d : Disk) (name : String) : Disk :=
  let made := d.modify (put (.directory []) ["tmp", name])
  { made with temporaries := made.temporaries + 1 }

theorem temporaries_withTemporary (d : Disk) (name : String) :
    (d.withTemporary name).temporaries = d.temporaries + 1 :=
  congrArg (· + 1) (temporaries_modify d _)

theorem touches_withTemporary (hname : names name) : Touches names d (d.withTemporary name) := by
  have htouches : Touches names d (d.modify (put (.directory []) ["tmp", name])) :=
    touches_put hname List.prefix_rfl
  exact ⟨⟨htouches.outside.working, fun hq => htouches.outside.kind hq⟩, fun hother => htouches.others hother⟩

theorem entryAt?_withTemporary (htmp : d.HasDirectory ["tmp"]) :
    (d.withTemporary name).entryAt? ["tmp", name] = some (.directory []) := by
  obtain ⟨entries, hentries⟩ := htmp
  exact entryAt?_put_self (d := d) (List.cons_ne_nil _ _) hentries

/-- Whether a temporary directory of a new name is made does not depend on the name. -/
theorem makeTemporary_eq (hstart : start ∈ temporaryStarts) (hnumber : name = temporaryName start d.temporaries)
    (hnew : d.IsNew name) :
    d.makeTemporary start =
      match d.temporaryFault? with
      | some fault => .error fault
      | none => .ok (d.withTemporary name, ofNames ["tmp", name]) := by
  have hname : IsName name := hnumber ▸ isName_temporaryName hstart d.temporaries
  obtain ⟨hfits, habsent⟩ := hnew
  rw [makeTemporary, ← temporaryName, ← hnumber, join_temporaryRoot hname, makeDirectory, place_temporary hname hfits]
  cases d.temporaryFault? with
  | some fault => rfl
  | none =>
    simp only [bind, Except.bind, habsent]
    rfl

/-- What uses at most one more temporary directory, of a new name, does to a disk. -/
structure UsesTemporary (d d' : Disk) : Prop where
  le : d.temporaries ≤ d'.temporaries
  le_succ : d'.temporaries ≤ d.temporaries + 1
  touches : Touches (Between d.temporaries d'.temporaries) d d'

theorem UsesTemporary.refl (d : Disk) : d.UsesTemporary d := ⟨Nat.le_refl _, Nat.le_succ _, .refl _ d⟩

theorem usesTemporary_of_touches (hstart : start ∈ temporaryStarts)
    (hnumber : name = temporaryName start d.temporaries) (htouches : Touches (· = name) d d')
    (hcount : d'.temporaries = d.temporaries + 1) : d.UsesTemporary d' := by
  refine ⟨by omega, by omega, htouches.mono fun other hother => ?_⟩
  exact ⟨start, hstart, d.temporaries, Nat.le_refl _, by omega, hother.trans hnumber⟩

end Disk

end PluginHost
