import PluginHost.Proofs.Disk.Growth
import PluginHost.Proofs.Text.Cut
/-!
Files next to each other: what lies in one directory under a name each.

A path to such a file is the path of the directory joined with the name. Main statements: the path with another
extension leads to the file of that name in the same directory, and a file that is written there holds what
was written and leaves what lies next to it as it was.
-/

namespace PluginHost

namespace Path

/-! Names that something is written after. -/

/-- A file can be called after the name, with whatever extension. -/
structure IsStem (name : String) : Prop where
  ne_empty : name ≠ ""
  no_slash : '/' ∉ name.toList

/-- What an extension can be: it has no dot of its own. -/
structure IsExtension (ext : String) : Prop where
  ne_empty : ext ≠ ""
  no_slash : '/' ∉ ext.toList
  no_dot : Text.cutLast? '.' ext.toList = none

/-- The name of a file with an extension. -/
def withDot (stem ext : String) : String := stem ++ "." ++ ext

variable {name stem ext path dir : String}

theorem toList_withDot (stem ext : String) : (withDot stem ext).toList = stem.toList ++ '.' :: ext.toList := by
  rw [withDot, String.toList_append, String.toList_append, List.append_assoc]
  rfl

namespace IsStem

theorem of_isName (h : IsName name) : IsStem name :=
  ⟨fun hempty => h.ne_empty (String.toList_eq_nil_iff.mpr hempty), h.no_slash⟩

theorem append (h : IsStem name) {more : String} (hmore : '/' ∉ more.toList) : IsStem (name ++ more) where
  ne_empty hempty := h.ne_empty (String.append_eq_empty_iff.mp hempty).1
  no_slash hmem := by
    rw [String.toList_append] at hmem
    exact (List.mem_append.mp hmem).elim h.no_slash hmore

/-- Cutting the extension off leaves a stem. -/
theorem cutName (h : IsName name) : IsStem (Path.cutName name).1 := by
  unfold Path.cutName
  split
  · next before after hcut =>
    split
    · exact of_isName h
    · next hbefore =>
      have hchars := Text.eq_append_of_cutLast? hcut
      refine ⟨fun hempty => hbefore ?_, fun hmem => h.no_slash ?_⟩
      · rw [String.ofList_eq_empty_iff.mp hempty]
        rfl
      · rw [String.toList_ofList] at hmem
        exact hchars ▸ List.mem_append_left _ hmem
  · exact of_isName h

theorem isName_withDot (hstem : IsStem stem) (hext : IsExtension ext) : IsName (withDot stem ext) := by
  have hlength : 2 < (withDot stem ext).toList.length := by
    have hs := List.length_pos_of_ne_nil fun h => hstem.ne_empty (String.toList_eq_nil_iff.mp h)
    have he := List.length_pos_of_ne_nil fun h => hext.ne_empty (String.toList_eq_nil_iff.mp h)
    rw [toList_withDot, List.length_append, List.length_cons]
    omega
  refine ⟨?_, ?_, ?_, fun hmem => ?_⟩
  · exact fun h => absurd hlength (by rw [h]; decide)
  · exact fun h => absurd hlength (by rw [h]; decide)
  · exact fun h => absurd hlength (by rw [h]; decide)
  · rw [toList_withDot, List.mem_append, List.mem_cons] at hmem
    rcases hmem with hs | hdot | he
    · exact hstem.no_slash hs
    · cases hdot
    · exact hext.no_slash he

theorem cutName_withDot (hstem : IsStem stem) (hext : IsExtension ext) :
    Path.cutName (withDot stem ext) = (stem, some ext) := by
  have hne : ¬ stem.toList.isEmpty = true := fun h =>
    hstem.ne_empty (String.toList_eq_nil_iff.mp (List.isEmpty_iff.mp h))
  have hcut : Text.cutLast? '.' (withDot stem ext).toList = some (stem.toList, ext.toList) := by
    rw [toList_withDot, Text.cutLast?_append_mark, hext.no_dot]
    rfl
  rw [Path.cutName, hcut]
  simp only [if_neg hne, String.ofList_toList]

theorem withDot_inj {other ext' : String} (hstem : IsStem stem) (hext : IsExtension ext) (hother : IsStem other)
    (hext' : IsExtension ext') (h : withDot stem ext = withDot other ext') : stem = other ∧ ext = ext' := by
  have hcut := hstem.cutName_withDot hext
  rw [h, hother.cutName_withDot hext'] at hcut
  cases hcut
  exact ⟨rfl, rfl⟩

end IsStem

theorem isStem_of_stem? (h : stem? path = some stem) : IsStem stem := by
  obtain ⟨name, hname, rfl⟩ := Option.map_eq_some_iff.mp h
  exact .cutName (isName_of_fileName? hname)

/-! Paths that end with a name. -/

namespace IsName

theorem isIdle (h : IsName name) : isIdle name.toList = false := by
  simp [Path.isIdle, h.ne_empty, h.ne_current]

theorem isAbsolute (h : IsName name) : isAbsolute name = false :=
  decide_eq_false fun hhead => h.no_slash (List.mem_of_head? hhead)

theorem segments (h : IsName name) : segments name = [name.toList] :=
  List.splitOnP_eq_singleton fun _ hc => decide_eq_false fun hslash => h.no_slash (hslash ▸ hc)

theorem steps (h : IsName name) : steps name = [name.toList] := by
  rw [Path.steps, h.segments, List.filter_cons_of_pos (by simp [h.isIdle]), List.filter_nil]

end IsName

/-- All names in a directory are written after the same segments. -/
theorem exists_segments_join (dir : String) :
    ∃ init, ∀ {name}, IsName name → segments (join dir name) = init ++ [name.toList] := by
  by_cases hempty : dir = ""
  · refine ⟨[], fun {name} hname => ?_⟩
    rw [hempty, join, hname.isAbsolute]
    exact hname.segments
  · obtain ⟨init, _, _, hjoin⟩ := segments_join hempty
    exact ⟨init, fun hname => by rw [hjoin hname.isAbsolute, hname.segments]⟩

theorem getLast?_scan {isFirst : Bool} {init : List (List Char)} (hname : IsName name) :
    ((scan isFirst (init ++ [name.toList])).map (·.1)).getLast? = some (.normal name) := by
  induction init generalizing isFirst with
  | nil =>
    rw [List.nil_append, scan, component?_name hname]
    rfl
  | cons s rest ih =>
    rw [List.cons_append, scan]
    split
    · rw [List.map_cons, List.getLast?_cons, ih]
      rfl
    · exact ih

theorem fileName?_join (hname : IsName name) : fileName? (join dir name) = some name := by
  obtain ⟨init, hsegments⟩ := exists_segments_join dir
  rw [fileName?, components, hsegments hname, getLast?_scan hname]

theorem trimEnd_concat {init : List (List Char)} {last : List Char} (hlast : isIdle last = false) :
    trimEnd (init ++ [last]) = init ++ [last] := by
  cases init with
  | nil => rfl
  | cons first rest =>
    rw [List.cons_append, trimEnd, dropIdleEnd, List.reverse_append, List.reverse_singleton,
      List.singleton_append, List.dropWhile_cons_of_neg (by simp [hlast]), List.reverse_cons,
      List.reverse_reverse]

theorem ofSegments_segments (path : String) : ofSegments (segments path) = path := by
  rw [ofSegments, segments]
  exact (congrArg String.ofList (List.intercalate_splitOn '/')).trans String.ofList_toList

theorem stem?_join (hstem : IsStem stem) (hext : IsExtension ext) :
    stem? (join dir (withDot stem ext)) = some stem := by
  rw [stem?, fileName?_join (hstem.isName_withDot hext), Option.map_some, hstem.cutName_withDot hext]

/-- A path with another extension stays in its directory. -/
theorem withExtension_join {other : String} (hstem : IsStem stem) (hext : IsExtension ext)
    (hother : IsExtension other) :
    withExtension (join dir (withDot stem ext)) other = join dir (withDot stem other) := by
  have hname := hstem.isName_withDot hext
  obtain ⟨init, hsegments⟩ := exists_segments_join dir
  rw [withExtension, stem?_join hstem hext]
  simp only
  rw [hsegments hname, trimEnd_concat hname.isIdle, List.dropLast_concat, ← withDot,
    ← hsegments (hstem.isName_withDot hother), ofSegments_segments]

end Path

namespace Disk

open Entry PluginHost.Path

variable {d d' : Disk} {dir name other : String} {place p q : List String} {e : Entry} {bytes : List UInt8}

/-- A path leads to a directory, whether or not the directory can be looked up by it. -/
structure OpensAt (d : Disk) (dir : String) (place : List String) : Prop where
  walk : d.walk (d.start dir) (steps dir) = .ok place
  directory : d.HasDirectory place

theorem OpensAt.unique (h : d.OpensAt dir p) (h' : d.OpensAt dir q) : p = q :=
  Except.ok.inj (h.walk.symm.trans h'.walk)

theorem Keeps.opensAt {except : List String} (hkeeps : d.Keeps d' except) (h : d.OpensAt dir place) :
    d'.OpensAt dir place :=
  ⟨hkeeps.start dir ▸ hkeeps.walk h.walk, hkeeps.directory h.directory⟩

/-- A path in a directory that can be given to a disk. -/
structure SayableIn (dir name : String) : Prop where
  path : Sayable (join dir name)
  name : (Text.utf8 name.toList).length ≤ maxNameBytes

theorem place_join_iff (hname : IsName name) :
    d.place (join dir name) = .ok q ↔
      SayableIn dir name ∧ ∃ place, d.OpensAt dir place ∧ q = place ++ [name] := by
  have hstart : d.start (join dir name) = d.start dir := by
    rw [start, start, isAbsolute_join hname.isAbsolute]
  have hsteps : steps (join dir name) = steps dir ++ [name.toList] := by
    rw [steps_join hname.isAbsolute, hname.steps]
  have hwalk : d.walk (d.start dir) (steps dir ++ [name.toList]) = .ok q ↔
      ((Text.utf8 name.toList).length ≤ maxNameBytes) ∧ ∃ place, d.OpensAt dir place ∧ q = place ++ [name] := by
    rw [walk_append_eq_ok_iff]
    constructor
    · rintro ⟨place, hdir, hlast⟩
      obtain ⟨next, hstep, hnil⟩ := walk_cons_eq_ok_iff.mp hlast
      cases hnil
      obtain ⟨hq, hshort, hdirectory⟩ := (step_name hname).mp hstep
      exact ⟨hshort, place, ⟨hdir, hdirectory⟩, hq⟩
    · rintro ⟨hshort, place, hopens, hq⟩
      exact ⟨place, hopens.walk,
        walk_cons_eq_ok_iff.mpr ⟨q, (step_name hname).mpr ⟨hq, hshort, hopens.directory⟩, rfl⟩⟩
  constructor
  · intro h
    have hsteps' := walk_steps_of_place h
    rw [hstart, hsteps, hwalk] at hsteps'
    exact ⟨⟨(place_eq_ok_iff.mp h).1, hsteps'.1⟩, hsteps'.2⟩
  · rintro ⟨hsayable, hplace⟩
    obtain ⟨init, hsegments⟩ := exists_segments_join dir
    refine place_of_walk_steps hsayable.path (hsegments hname) hname.isIdle ?_
    rw [hstart, hsteps, hwalk]
    exact ⟨hsayable.name, hplace⟩

theorem lookup_join_iff (hname : IsName name) :
    d.lookup (join dir name) = .ok e ↔
      SayableIn dir name ∧ ∃ place, d.OpensAt dir place ∧ d.entryAt? (place ++ [name]) = some e := by
  obtain ⟨init, hsegments⟩ := exists_segments_join dir
  rw [lookup_eq_ok_iff (namesDirectory_eq_false (hsegments hname) hname.isIdle)]
  simp only [place_join_iff hname]
  constructor
  · rintro ⟨q, ⟨hsayable, place, hopens, rfl⟩, hentry⟩
    exact ⟨hsayable, place, hopens, hentry⟩
  · rintro ⟨hsayable, place, hopens, hentry⟩
    exact ⟨_, ⟨hsayable, place, hopens, rfl⟩, hentry⟩

theorem apart_siblings (place : List String) (hne : name ≠ other) : Apart (place ++ [name]) (place ++ [other]) := by
  induction place with
  | nil => exact apart_of_ne hne [] []
  | cons first rest ih => exact ih.cons first

/-- A file that is written in a directory is found there, and what is found under another name in the directory is
    what was found there before. -/
theorem lookup_write_join (hname : IsName name) (h : d.write (join dir name) bytes = .ok d') :
    d'.lookup (join dir name) = .ok (.file bytes) ∧
      ∀ {other}, IsName other → other ≠ name →
        ∀ e, d'.lookup (join dir other) = .ok e ↔ d.lookup (join dir other) = .ok e := by
  obtain ⟨q, hq, hfree, hput⟩ := write_eq_put h
  have hkeeps := write_keeps h hq
  obtain ⟨hsayable, place, hopens, rfl⟩ := (place_join_iff hname).mp hq
  have hafter := hkeeps.opensAt hopens
  refine ⟨(lookup_join_iff hname).mpr ⟨hsayable, place, hafter, hput ▸ put_self _ hq hfree⟩,
    fun {other} hother hne e => ?_⟩
  have hentry : d'.entryAt? (place ++ [other]) = d.entryAt? (place ++ [other]) := by
    rw [hput]
    exact entryAt?_put_of_apart (apart_siblings place (Ne.symm hne))
  rw [lookup_join_iff hother, lookup_join_iff hother]
  constructor
  · rintro ⟨hsayable, at_, hat, he⟩
    cases hat.unique hafter
    exact ⟨hsayable, place, hopens, hentry ▸ he⟩
  · rintro ⟨hsayable, at_, hat, he⟩
    cases hat.unique hopens
    exact ⟨hsayable, place, hafter, hentry ▸ he⟩

/-- Files are written in a directory one after another. -/
inductive WritesIn (dir : String) : Disk → List (String × List UInt8) → Disk → Prop
  | nil (d : Disk) : WritesIn dir d [] d
  | cons {d d' d'' : Disk} {name : String} {bytes : List UInt8} {files : List (String × List UInt8)}
    (hwrite : d.write (join dir name) bytes = .ok d') (hrest : WritesIn dir d' files d'') :
    WritesIn dir d ((name, bytes) :: files) d''

namespace WritesIn

variable {d'' : Disk} {files others : List (String × List UInt8)}

theorem append (h : WritesIn dir d files d') (h' : WritesIn dir d' others d'') :
    WritesIn dir d (files ++ others) d'' := by
  induction h with
  | nil d => exact h'
  | cons hwrite _ ih => exact .cons hwrite (ih h')

theorem lookup_other (h : WritesIn dir d files d') (hnames : ∀ f ∈ files, IsName f.1) (hother : IsName other)
    (hnot : ∀ f ∈ files, f.1 ≠ other) :
    ∀ e, d'.lookup (join dir other) = .ok e ↔ d.lookup (join dir other) = .ok e := by
  induction h with
  | nil d => exact fun _ => Iff.rfl
  | cons hwrite _ ih =>
    rw [List.forall_mem_cons] at hnames hnot
    intro e
    rw [ih hnames.2 hnot.2 e]
    exact (lookup_write_join hnames.1 hwrite).2 hother (Ne.symm hnot.1) e

/-- Files of different names are all found as they were written. -/
theorem lookup_written (h : WritesIn dir d files d') (hnames : ∀ f ∈ files, IsName f.1)
    (hnodup : (files.map Prod.fst).Nodup) :
    ∀ f ∈ files, d'.lookup (join dir f.1) = .ok (.file f.2) := by
  induction h with
  | nil d => exact List.forall_mem_nil _
  | cons hwrite hrest ih =>
    rw [List.map_cons, List.nodup_cons] at hnodup
    rw [List.forall_mem_cons] at hnames ⊢
    refine ⟨?_, ih hnames.2 hnodup.2⟩
    rw [hrest.lookup_other hnames.2 hnames.1 fun f hf => ne_of_mem_of_not_mem (List.mem_map_of_mem hf) hnodup.1]
    exact (lookup_write_join hnames.1 hwrite).1

end WritesIn

end Disk

end PluginHost
