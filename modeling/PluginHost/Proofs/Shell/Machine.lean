import PluginHost.Compile.External
import PluginHost.Proofs.Disk.Entries
import PluginHost.Shell.Machine
/-!
What the programs of a machine leave on a disk that was handed to them.

What is installed is put on the disk before a program starts and taken off when it has ended. Main statement: whatever
the program does, the place from which relative paths start stays, nothing that is installed stays, and a disk on
which no program could be started is as it was.
-/

namespace PluginHost.Shell

namespace Installation

variable {disk : Disk} {name : String}

theorem mem_missing_names_iff : name ∈ (missing disk).map (·.1) ↔
    name ∈ entries.map (·.1) ∧ Assoc.get? disk.root name = none := by
  rw [missing]
  constructor
  · intro h
    obtain ⟨e, he, rfl⟩ := List.mem_map.mp h
    obtain ⟨hentry, hnone⟩ := List.mem_filter.mp he
    exact ⟨List.mem_map_of_mem hentry, Option.isNone_iff_eq_none.mp hnone⟩
  · rintro ⟨h, hnone⟩
    obtain ⟨e, he, rfl⟩ := List.mem_map.mp h
    exact List.mem_map_of_mem (List.mem_filter.mpr ⟨he, Option.isNone_iff_eq_none.mpr hnone⟩)

theorem get?_of_mem {root : List (String × Entry)} {e : String × Entry} (he : e ∈ root) :
    Assoc.get? root e.1 ≠ none := by
  rw [Assoc.get?, Ne, Option.map_eq_none_iff, List.find?_eq_none]
  exact fun hnone => hnone e he (decide_eq_true rfl)

/-- What is taken off shows no trace of what was put on under the same names. -/
theorem filter_insert {names : List String} (hname : name ∈ names) (value : Entry) (root : List (String × Entry)) :
    (Assoc.insert name value root).filter (fun e => !names.contains e.1) =
      root.filter fun e => !names.contains e.1 := by
  have hgone : ∀ value : Entry, (!names.contains (name, value).1) = false := fun value => by simpa using hname
  induction root with
  | nil => simp [Assoc.insert, hname]
  | cons e rest ih =>
    rw [Assoc.insert]
    split
    · rw [List.filter_cons_of_neg (by simp [hname])]
    · next hbefore =>
      split
      · rw [List.filter_cons, List.filter_cons, ih]
      · next hbehind =>
        have hsame : e.1 = name := String.le_antisymm (String.not_lt.mp hbefore) (String.not_lt.mp hbehind)
        rw [List.filter_cons_of_neg (by simp [hsame, hname]), List.filter_cons_of_neg (by simp [hsame, hname])]

/-- Between putting on and taking off, nothing is left behind. -/
theorem unmount_mount (disk : Disk) : unmount disk (mount disk) = disk := by
  let names := (missing disk).map (·.1)
  have hadded : ∀ (added root : List (String × Entry)), (∀ e ∈ added, e.1 ∈ names) →
      (added.foldl (fun root e => Assoc.insert e.1 e.2 root) root).filter (fun e => !names.contains e.1) =
        root.filter fun e => !names.contains e.1 := by
    intro added
    induction added with
    | nil => exact fun _ _ => rfl
    | cons e rest ih =>
      intro root hnames
      rw [List.forall_mem_cons] at hnames
      rw [List.foldl_cons, ih _ hnames.2, filter_insert hnames.1]
  have hkept : disk.root.filter (fun e => !names.contains e.1) = disk.root := by
    refine List.filter_eq_self.mpr fun e he => ?_
    have hnew : e.1 ∉ names := fun h => get?_of_mem he (mem_missing_names_iff.mp h).2
    simpa using hnew
  rw [unmount, mount]
  dsimp only
  rw [hadded _ _ fun e he => List.mem_map_of_mem he, hkept]

/-- What is taken off is not there any more, whatever it has become in between. -/
theorem get?_unmount (left : Disk) (hname : name ∈ (missing disk).map (·.1)) :
    Assoc.get? (unmount disk left).root name = none := by
  rw [unmount, Assoc.get?, Option.map_eq_none_iff, List.find?_eq_none]
  intro e he heq
  have hkept := (List.mem_filter.mp he).2
  rw [of_decide_eq_true heq] at hkept
  simp only [Bool.not_eq_true', List.contains_eq_mem, decide_eq_false_iff_not] at hkept
  exact hkept hname

end Installation

/-- A program keeps the place from which relative paths start and leaves nothing of what is installed; and the disk is
    as it was if there is no program. -/
structure Frame {ε α : Type} (disk : Disk) (ended : Disk × Except ε α) : Prop where
  working : ended.1.working = disk.working
  unchanged : ∀ fault, ended.2 = .error fault → ended.1 = disk
  uninstalled : ∀ name ∈ Installation.entries.map (·.1),
    Assoc.get? disk.root name = none → Assoc.get? ended.1.root name = none

theorem frame_error (disk : Disk) (fault : IoFault) :
    Frame disk (disk, (.error fault : Except IoFault ProgramResult)) :=
  ⟨rfl, fun _ _ => rfl, fun _ _ hnone => hnone⟩

theorem frame_ended (disk after : Disk) (result : ProgramResult) :
    Frame disk ({ Installation.unmount disk after with working := disk.working },
      (.ok result : Except IoFault ProgramResult)) where
  working := rfl
  unchanged _ := nofun
  uninstalled _ hname hnone :=
    Installation.get?_unmount after (Installation.mem_missing_names_iff.mpr ⟨hname, hnone⟩)

theorem programs_frame (environment : List (String × String)) (disk : Disk) (program : String) (args : List String) :
    Frame disk (programs environment disk program args) := by
  unfold programs
  split
  · exact frame_error disk _
  · dsimp only
    split
    · exact frame_error disk _
    · -- The program has been run, whatever it has come to.
      split
      split
      · exact frame_error disk _
      · exact frame_ended disk _ _
      · exact frame_ended disk _ _
      · exact frame_ended disk _ _

/-- A compiler that is a program of the machine leaves a disk as programs do. -/
theorem toolchain_frame (c : ExternalCompiler) (environment : List (String × String)) (disk : Disk) (i : Invocation) :
    Frame disk (c.toolchain (programs environment) disk i) := by
  have hframe := programs_frame environment disk c.program (c.arguments i)
  rw [ExternalCompiler.toolchain]
  split
  · next hended =>
    rw [hended] at hframe
    exact ⟨hframe.working, fun _ => nofun, hframe.uninstalled⟩
  · next io hended =>
    rw [hended] at hframe
    exact ⟨hframe.working, fun _ _ => hframe.unchanged io rfl, hframe.uninstalled⟩

end PluginHost.Shell
