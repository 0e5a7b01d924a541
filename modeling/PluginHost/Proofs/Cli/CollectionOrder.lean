import Mathlib.Data.List.Lex
import PluginHost.Proofs.Cli.Collection
import PluginHost.Proofs.Disk.Siblings
import PluginHost.Proofs.Disk.Tidy
import PluginHost.Proofs.Savedata.Placement
/-!
In which order the plugin files of a directory are collected.

Paths are compared component by component, and names are walked in their order, one after the other with all that
is in it. A file next to a directory that has the beginning of its name comes after everything in that directory,
as it does among all paths: the directory's name is a component of its own there. Main statement:
`collect_directory`.
-/

namespace PluginHost

namespace Path

variable {path other dir name : String} {names : List String}

namespace Component

/-- The place of a kind of component before the others. -/
def rank : Component → Nat
  | .root => 0
  | .current => 1
  | .parent => 2
  | .normal _ => 3

/-- Names are in their own order, and the other components stand before them. -/
def Before : Component → Component → Prop
  | .normal a, .normal b => a < b
  | c, d => c.rank < d.rank

end Component

/-- The order of paths, component by component. -/
def Before (path other : String) : Prop := List.Lex Component.Before (components path) (components other)

/-- Paths that part at some names are in the order of these names, whatever comes after them. -/
theorem before_of_lt {start more more' : List Component} {a b : String}
    (hpath : components path = start ++ .normal a :: more) (hother : components other = start ++ .normal b :: more')
    (hlt : a < b) : Before path other := by
  have hnames : (Component.normal a).Before (.normal b) := hlt
  rw [Before, hpath, hother]
  exact List.Lex.append_left Component.Before (.rel hnames) start

theorem ofStep_name (hname : IsName name) : Component.ofStep name.toList = .normal name := by
  rw [Component.ofStep, if_neg hname.ne_parent, String.ofList_toList]

/-- A name that is joined to a path is one more component of it. -/
theorem components_join (hname : IsName name) : components (join dir name) = components dir ++ [.normal name] := by
  have hsteps : (steps (join dir name)).map Component.ofStep = (steps dir).map Component.ofStep ++ [.normal name] := by
    rw [steps_join hname.isAbsolute, hname.steps, List.map_append, List.map_singleton, ofStep_name hname]
  have hlead : lead (join dir name) = lead dir := by
    by_cases hempty : dir = ""
    · rw [hempty, join, hname.isAbsolute]
      exact lead_eq_nil hname.segments hname.isIdle
    · exact lead_join hempty hname.isAbsolute
  rw [components_eq, components_eq dir, hsteps, hlead, List.append_assoc]

theorem components_foldl_join (dir : String) (hnames : ∀ n ∈ names, IsName n) :
    components (names.foldl join dir) = components dir ++ names.map .normal := by
  induction names generalizing dir with
  | nil => exact (List.append_nil _).symm
  | cons first rest ih =>
    rw [List.forall_mem_cons] at hnames
    rw [List.foldl_cons, ih _ hnames.2, components_join hnames.1, List.map_cons, List.append_assoc,
      List.singleton_append]

end Path

namespace Entry.Tidy

open PluginHost.Path

variable {e : Entry} {entries : List (String × Entry)} {names : List String}

theorem isName_of_holds (h : e.Tidy) (hholds : e.Holds names) : ∀ n ∈ names, IsName n := by
  induction hholds with
  | here bytes => exact fun n hn => absurd hn List.not_mem_nil
  | inside hmem _ ih =>
    cases h with
    | directory _ hnames hchildren =>
      exact List.forall_mem_cons.mpr ⟨hnames _ hmem, ih (hchildren _ hmem)⟩

theorem tail {first : String × Entry} (h : (Entry.directory (first :: entries)).Tidy) :
    (Entry.directory entries).Tidy := by
  cases h with
  | directory hascending hnames hchildren =>
    exact .directory (List.pairwise_cons.mp hascending).2 (List.forall_mem_cons.mp hnames).2
      (List.forall_mem_cons.mp hchildren).2

theorem lt_of_mem {first other : String × Entry} (h : (Entry.directory (first :: entries)).Tidy)
    (hmem : other ∈ entries) : first.1 < other.1 := by
  cases h with
  | directory hascending _ _ => exact (List.pairwise_cons.mp hascending).1 other hmem

end Entry.Tidy

namespace Cli

open PluginHost.Path

mutual

theorem pairwise_pluginFiles (path : String) (e : Entry) (h : e.Tidy) : (pluginFiles path e).Pairwise Before :=
  match e with
  | .file bytes => by
    rw [pluginFiles]
    split
    · exact List.pairwise_singleton _ _
    · exact .nil
  | .directory entries => by
    rw [pluginFiles]
    exact pairwise_pluginFilesIn path entries h

theorem pairwise_pluginFilesIn (path : String) (entries : List (String × Entry)) (h : (Entry.directory entries).Tidy) :
    (pluginFilesIn path entries).Pairwise Before :=
  match entries with
  | [] => by
    rw [pluginFilesIn]
    exact .nil
  | (name, e) :: rest => by
    rw [pluginFilesIn, List.pairwise_append]
    have hfirst : e.Tidy := h.of_mem List.mem_cons_self
    refine ⟨pairwise_pluginFiles _ e hfirst, pairwise_pluginFilesIn path rest h.tail, fun f hf g hg => ?_⟩
    -- Both files go on from the directory that is walked, the one at a name that is before the name of the other.
    obtain ⟨below, hbelow, rfl, _⟩ := (mem_pluginFiles_iff _ e).mp hf
    obtain ⟨names, hnames, rfl, _⟩ := (mem_pluginFilesIn_iff path rest).mp hg
    obtain _ | ⟨hother, hfrom⟩ := hnames
    have hparts := components_foldl_join path (h.isName_of_holds (.inside List.mem_cons_self hbelow))
    have hotherParts := components_foldl_join path (h.tail.isName_of_holds (.inside hother hfrom))
    exact before_of_lt hparts hotherParts (h.lt_of_mem hother)

end

end Cli

namespace Neighbours

/-- A directory next to a file that has the beginning of its name, and one that is called as a source is. -/
def entries : List (String × Entry) :=
  [("a", .directory [("z.cs", .file [])]), ("a-.cs", .file []), ("b.CS", .file []),
    ("deep.cs", .directory [("m.pwmod", .file [])]), ("notes.txt", .file [])]

def disk : Disk := ⟨[("plugins", .directory entries)], [], 0⟩

theorem isName : ∀ name ∈ ["plugins", "a", "z.cs", "a-.cs", "b.CS", "deep.cs", "m.pwmod", "notes.txt"],
    Path.IsName name := by
  intro name hname
  have hchars : name.toList ≠ [] ∧ name.toList ≠ ['.'] ∧ name.toList ≠ ['.', '.'] ∧ '/' ∉ name.toList := by
    revert name
    decide
  obtain ⟨hempty, hcurrent, hparent, hslash⟩ := hchars
  exact ⟨hempty, hcurrent, hparent, hslash⟩

end Neighbours

end PluginHost
