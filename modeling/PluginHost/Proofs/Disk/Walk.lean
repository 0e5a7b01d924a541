import Mathlib.Data.List.TakeWhile
import PluginHost.Proofs.Disk.Entries
import PluginHost.Proofs.Disk.Steps
/-!
Walks: how the segments of any path are followed from directory to directory.

Where a walk gets is decided by its segments, and the disk decides only whether it gets there: every place on
the way has to be a directory. Main statement: a path leads where its steps do.
-/

namespace PluginHost.Disk

open Entry PluginHost.Path

variable {d d' : Disk} {path : String} {place p q : List String} {s : List Char}
  {segments rest : List (List Char)} {new e : Entry} {bytes : List UInt8}

/-- There is a directory at the place. -/
def HasDirectory (d : Disk) (place : List String) : Prop := ∃ entries, d.entryAt? place = some (.directory entries)

theorem hasDirectory_nil (d : Disk) : d.HasDirectory [] := ⟨d.root, rfl⟩

theorem not_hasDirectory_of_none (h : d.entryAt? place = none) : ¬ d.HasDirectory place := by
  rintro ⟨entries, hentry⟩
  rw [h] at hentry
  cases hentry

theorem not_hasDirectory_of_file (h : d.entryAt? place = some (.file bytes)) : ¬ d.HasDirectory place := by
  rintro ⟨entries, hentry⟩
  rw [h] at hentry
  cases hentry

theorem hasDirectory_above (hentry : d.entryAt? q = some e) (hbegins : p <+: q) (hne : p ≠ q) :
    d.HasDirectory p := by
  obtain ⟨_ | ⟨name, rest⟩, rfl⟩ := hbegins
  · exact absurd (List.append_nil p).symm hne
  · exact find?_cons_eq_some hentry

theorem HasDirectory.dropLast (h : d.HasDirectory place) : d.HasDirectory place.dropLast := by
  obtain ⟨entries, hentry⟩ := h
  by_cases hnil : place = []
  · rw [hnil]
    exact d.hasDirectory_nil
  · exact parent_of_entryAt? hnil hentry

/-! Walks. -/

/-- Where a segment leads from a directory. -/
def onward (place : List String) : List Char → Except IoFault (List String)
  | [] | ['.'] => .ok place
  | ['.', '.'] => .ok place.dropLast
  | name =>
    if (Text.utf8 name).length > maxNameBytes then .error .nameTooLong else .ok (place ++ [String.ofList name])

/-- Only whether a step is made depends on the disk, not where it leads. -/
theorem step_eq_ok_iff : d.step place s = .ok q ↔ d.HasDirectory place ∧ onward place s = .ok q := by
  unfold step
  split
  · next hnone => simp [HasDirectory, hnone]
  · next bytes hfile => simp [HasDirectory, hfile]
  · next entries hdirectory => exact ⟨fun h => ⟨⟨entries, hdirectory⟩, h⟩, fun h => h.2⟩

theorem onward_idle (hidle : isIdle s = true) : onward place s = .ok place := by
  have hs : s = [] ∨ s = ['.'] := by simpa [isIdle] using hidle
  rcases hs with rfl | rfl <;> rfl

theorem onward_name (hidle : isIdle s = false) (hparent : s ≠ ['.', '.']) (h : onward place s = .ok q) :
    q = place ++ [String.ofList s] := by
  unfold onward at h
  split at h
  · cases hidle
  · cases hidle
  · exact absurd rfl hparent
  · split at h
    · cases h
    · exact (Except.ok.inj h).symm

/-- Follows segments one by one. -/
def walk (d : Disk) (place : List String) (segments : List (List Char)) : Except IoFault (List String) :=
  segments.foldlM d.step place

theorem walk_cons_eq_ok_iff :
    d.walk place (s :: rest) = .ok q ↔ ∃ p, d.step place s = .ok p ∧ d.walk p rest = .ok q := by
  rw [walk, List.foldlM_cons, bind_eq_ok_iff]
  rfl

theorem walk_append_eq_ok_iff :
    d.walk place (segments ++ rest) = .ok q ↔ ∃ p, d.walk place segments = .ok p ∧ d.walk p rest = .ok q := by
  rw [walk, List.foldlM_append, bind_eq_ok_iff]
  rfl

theorem hasDirectory_of_walk (hne : segments ≠ []) (h : d.walk place segments = .ok q) : d.HasDirectory place := by
  cases segments with
  | nil => exact absurd rfl hne
  | cons s rest =>
    obtain ⟨_, hstep, _⟩ := walk_cons_eq_ok_iff.mp h
    exact (step_eq_ok_iff.mp hstep).1

/-- A walk that gets anywhere gets there without the idle segments as well. -/
theorem walk_filter (h : d.walk place segments = .ok q) :
    d.walk place (segments.filter fun s => !isIdle s) = .ok q := by
  induction segments generalizing place with
  | nil => exact h
  | cons s rest ih =>
    obtain ⟨next, hstep, hrest⟩ := walk_cons_eq_ok_iff.mp h
    by_cases hidle : isIdle s = true
    · have hnext := (onward_idle hidle).symm.trans (step_eq_ok_iff.mp hstep).2
      cases hnext
      rw [List.filter_cons_of_neg (by simp [hidle])]
      exact ih hrest
    · rw [List.filter_cons_of_pos (by simpa using hidle)]
      exact walk_cons_eq_ok_iff.mpr ⟨next, hstep, ih hrest⟩

/-- Idle segments do no harm before one that is not. -/
theorem walk_of_filter {last : List Char}
    (h : d.walk place ((segments.filter fun s => !isIdle s) ++ [last]) = .ok q) :
    d.walk place (segments ++ [last]) = .ok q := by
  induction segments generalizing place with
  | nil => exact h
  | cons s rest ih =>
    by_cases hidle : isIdle s = true
    · rw [List.filter_cons_of_neg (by simp [hidle])] at h
      have hdirectory := hasDirectory_of_walk (by simp) h
      exact walk_cons_eq_ok_iff.mpr ⟨place, step_eq_ok_iff.mpr ⟨hdirectory, onward_idle hidle⟩, ih h⟩
    · rw [List.filter_cons_of_pos (by simpa using hidle), List.cons_append, walk_cons_eq_ok_iff] at h
      obtain ⟨next, hstep, hrest⟩ := h
      exact walk_cons_eq_ok_iff.mpr ⟨next, hstep, ih hrest⟩

/-- Names lead down. -/
theorem walk_names (hnames : ∀ s ∈ segments, isIdle s = false ∧ s ≠ ['.', '.'])
    (h : d.walk place segments = .ok q) : q = place ++ segments.map String.ofList := by
  induction segments generalizing place with
  | nil =>
    cases h
    exact (List.append_nil _).symm
  | cons s rest ih =>
    obtain ⟨next, hstep, hrest⟩ := walk_cons_eq_ok_iff.mp h
    rw [List.forall_mem_cons] at hnames
    rw [ih hnames.2 hrest, onward_name hnames.1.1 hnames.1.2 (step_eq_ok_iff.mp hstep).2, List.map_cons,
      List.append_assoc, List.singleton_append]

/-- A walk ends at a directory, or at a name in one. -/
theorem walk_end (hne : segments ≠ []) (h : d.walk place segments = .ok q) :
    d.HasDirectory q ∨ ∃ p name, q = p ++ [name] ∧ d.HasDirectory p := by
  obtain ⟨init, s, rfl⟩ := (List.eq_nil_or_concat' segments).resolve_left hne
  obtain ⟨p, _, hlast⟩ := walk_append_eq_ok_iff.mp h
  obtain ⟨next, hstep, hnil⟩ := walk_cons_eq_ok_iff.mp hlast
  cases hnil
  obtain ⟨hdirectory, honward⟩ := step_eq_ok_iff.mp hstep
  unfold onward at honward
  split at honward
  · cases honward
    exact Or.inl hdirectory
  · cases honward
    exact Or.inl hdirectory
  · cases honward
    exact Or.inl hdirectory.dropLast
  · split at honward
    · cases honward
    · cases honward
      exact Or.inr ⟨p, _, rfl, hdirectory⟩

/-! Places of paths. -/

/-- Where a path starts. -/
def start (d : Disk) (path : String) : List String := if Path.isAbsolute path then [] else d.working

/-- A path that can be given to a disk at all. -/
structure Sayable (path : String) : Prop where
  no_nul : path.toList.contains '\x00' = false
  ne_empty : path.isEmpty = false
  short : (Text.utf8 path.toList).length ≤ maxPathBytes

theorem place_eq_ok_iff : d.place path = .ok q ↔
    Sayable path ∧ d.walk (d.start path) ((Path.segments path).reverse.dropWhile List.isEmpty).reverse = .ok q := by
  unfold Disk.place
  split
  · next hnul => exact ⟨nofun, fun h => by rw [h.1.no_nul] at hnul; cases hnul⟩
  · next hnul =>
    split
    · next hempty => exact ⟨nofun, fun h => by rw [h.1.ne_empty] at hempty; cases hempty⟩
    · next hempty =>
      split
      · next hlong => exact ⟨nofun, fun h => absurd h.1.short (Nat.not_le.mpr hlong)⟩
      · next hshort =>
        have hsayable : Sayable path := ⟨by simpa using hnul, by simpa using hempty, Nat.not_lt.mp hshort⟩
        exact ⟨fun h => ⟨hsayable, h⟩, fun h => h.2⟩

theorem filter_trailing (segments : List (List Char)) :
    ((segments.reverse.dropWhile List.isEmpty).reverse).filter (fun s => !isIdle s) =
      segments.filter fun s => !isIdle s := by
  induction segments using List.reverseRecOn with
  | nil => rfl
  | append_singleton init last ih =>
    rw [List.reverse_append, List.reverse_singleton, List.singleton_append, List.filter_append]
    by_cases hempty : last.isEmpty = true
    · rw [List.dropWhile_cons_of_pos hempty, ih, List.isEmpty_iff.mp hempty]
      simp [isIdle]
    · rw [List.dropWhile_cons_of_neg hempty, List.reverse_cons, List.reverse_reverse, List.filter_append]

/-- A path leads where its steps do. -/
theorem walk_steps_of_place (h : d.place path = .ok q) : d.walk (d.start path) (steps path) = .ok q := by
  rw [steps, ← filter_trailing]
  exact walk_filter (place_eq_ok_iff.mp h).2

/-- The steps are enough for a path that ends with one. -/
theorem place_of_walk_steps {init : List (List Char)} {last : List Char} (hsayable : Sayable path)
    (hsegments : Path.segments path = init ++ [last]) (hlast : isIdle last = false)
    (h : d.walk (d.start path) (steps path) = .ok q) : d.place path = .ok q := by
  have hempty : ¬ last.isEmpty = true := by
    intro hempty
    rw [List.isEmpty_iff.mp hempty] at hlast
    cases hlast
  rw [place_eq_ok_iff, hsegments, List.reverse_append, List.reverse_singleton, List.singleton_append,
    List.dropWhile_cons_of_neg hempty, List.reverse_cons, List.reverse_reverse]
  rw [steps, hsegments, List.filter_append, List.filter_cons_of_pos (by simpa using hlast), List.filter_nil] at h
  exact ⟨hsayable, walk_of_filter h⟩

/-- A path leads to a directory, or to a name in one. -/
theorem place_end (h : d.place path = .ok q) :
    d.HasDirectory q ∨ ∃ p name, q = p ++ [name] ∧ d.HasDirectory p := by
  obtain ⟨hsayable, hwalk⟩ := place_eq_ok_iff.mp h
  by_cases hnil : ((Path.segments path).reverse.dropWhile List.isEmpty).reverse = []
  · -- Without segments to follow the path is the root.
    rw [hnil] at hwalk
    cases hwalk
    have hblank : ∀ s ∈ Path.segments path, s = [] := by
      rw [List.reverse_eq_nil_iff, List.dropWhile_eq_nil_iff] at hnil
      exact fun s hs => List.isEmpty_iff.mp (hnil s (List.mem_reverse.mpr hs))
    rw [start, if_pos (isAbsolute_of_blank hsayable.ne_empty hblank)]
    exact Or.inl d.hasDirectory_nil
  · exact walk_end hnil hwalk

theorem namesDirectory_eq_false {init : List (List Char)} {last : List Char}
    (hsegments : Path.segments path = init ++ [last]) (hlast : isIdle last = false) :
    namesDirectory path = false := by
  rw [namesDirectory, decide_eq_false_iff_not]
  intro hslash
  obtain ⟨before, hbefore⟩ := List.getLast?_eq_some_iff.mp hslash
  rw [segments_of_toList hbefore] at hsegments
  have hempty : last = [] := (List.singleton_inj.mp (List.append_inj' hsegments rfl).2).symm
  rw [hempty] at hlast
  cases hlast

/-- A path that does not end with a slash finds what is at its place. -/
theorem lookup_eq_ok_iff (hname : namesDirectory path = false) :
    d.lookup path = .ok e ↔ ∃ p, d.place path = .ok p ∧ d.entryAt? p = some e := by
  rw [lookup, bind_eq_ok_iff]
  refine exists_congr fun p => and_congr_right fun _ => ?_
  rcases d.entryAt? p with _ | (_ | _) <;> simp [hname, throw, throwThe, MonadExceptOf.throw, pure, Except.pure]

end PluginHost.Disk
