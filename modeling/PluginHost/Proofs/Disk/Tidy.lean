import PluginHost.Proofs.Disk.Growth
/-!
Disks whose directories are in order.

A directory has every name once, and its names ascend. No operation on a disk leaves a directory in any other
state, so whoever reads a directory from front to back comes by its names in order.
-/

namespace PluginHost

/-- Every directory has its names in ascending order, and what stands under a name can have it. -/
inductive Entry.Tidy : Entry → Prop
  | file (bytes : List UInt8) : Tidy (.file bytes)
  | directory {entries : List (String × Entry)} (hascending : Assoc.Ascending entries)
      (hnames : ∀ e ∈ entries, Path.IsName e.1) (hchildren : ∀ e ∈ entries, Tidy e.2) : Tidy (.directory entries)

/-- What is put under a key is there, and the other entries were there before. -/
theorem Assoc.mem_insert {α : Type} {key : String} {value : α} {entries : List (String × α)} {e : String × α}
    (hmem : e ∈ insert key value entries) : e = (key, value) ∨ e ∈ entries := by
  induction entries with
  | nil => exact Or.inl (List.mem_singleton.mp hmem)
  | cons first rest ih =>
    rw [insert] at hmem
    split at hmem
    · exact (List.mem_cons.mp hmem)
    · next hbefore =>
      split at hmem
      · rcases List.mem_cons.mp hmem with rfl | hrest
        · exact Or.inr List.mem_cons_self
        · exact (ih hrest).imp_right (List.mem_cons_of_mem _)
      · next hbehind =>
        have hkey : first.1 = key := String.le_antisymm (String.not_lt.mp hbefore) (String.not_lt.mp hbehind)
        rw [hkey] at hmem
        exact (List.mem_cons.mp hmem).imp_right (List.mem_cons_of_mem _)

namespace Entry.Tidy

open PluginHost.Path

variable {e new child : Entry} {entries : List (String × Entry)} {name : String} {p : List String}

theorem empty : (Entry.directory []).Tidy :=
  .directory .nil (fun _ h => absurd h List.not_mem_nil) fun _ h => absurd h List.not_mem_nil

theorem of_mem (h : (Entry.directory entries).Tidy) (hmem : (name, child) ∈ entries) : child.Tidy := by
  cases h with
  | directory _ _ hchildren => exact hchildren _ hmem

theorem of_get? (h : (Entry.directory entries).Tidy) (hget : Assoc.get? entries name = some child) :
    IsName name ∧ child.Tidy := by
  have hmem := Assoc.mem_of_get? hget
  cases h with
  | directory _ hnames hchildren => exact ⟨hnames _ hmem, hchildren _ hmem⟩

theorem insert (h : (Entry.directory entries).Tidy) (hname : IsName name) (hnew : new.Tidy) :
    (Entry.directory (Assoc.insert name new entries)).Tidy := by
  cases h with
  | directory hascending hnames hchildren =>
    refine .directory hascending.insert (fun e he => ?_) fun e he => ?_
    · rcases Assoc.mem_insert he with rfl | hold
      · exact hname
      · exact hnames e hold
    · rcases Assoc.mem_insert he with rfl | hold
      · exact hnew
      · exact hchildren e hold

theorem filter (h : (Entry.directory entries).Tidy) (keeps : String × Entry → Bool) :
    (Entry.directory (entries.filter keeps)).Tidy := by
  cases h with
  | directory hascending hnames hchildren =>
    exact .directory (hascending.filter keeps) (fun e he => hnames e (List.mem_filter.mp he).1)
      fun e he => hchildren e (List.mem_filter.mp he).1

theorem find? (h : e.Tidy) (hfound : Entry.find? p e = some child) : child.Tidy := by
  induction p generalizing e with
  | nil =>
    cases hfound
    exact h
  | cons name rest ih =>
    cases e with
    | file bytes => cases hfound
    | directory entries =>
      obtain ⟨next, hnext, hrest⟩ := Option.bind_eq_some_iff.mp hfound
      exact ih (h.of_get? hnext).2 hrest

theorem put (h : e.Tidy) (hnames : ∀ n ∈ p, IsName n) (hnew : new.Tidy) : (Entry.put new p e).Tidy := by
  fun_induction Entry.put new p e with
  | case1 => exact hnew
  | case2 name entries => exact h.insert (hnames name List.mem_cons_self) hnew
  | case3 name rest entries hrest child hchild ih =>
    obtain ⟨hname, htidy⟩ := h.of_get? hchild
    exact h.insert hname (ih htidy fun n hn => hnames n (List.mem_cons_of_mem _ hn))
  | case4 => exact h
  | case5 => exact h

theorem remove (h : e.Tidy) (p : List String) : (Entry.remove p e).Tidy := by
  fun_induction Entry.remove p e with
  | case1 name entries => exact h.filter _
  | case2 name rest entries hrest child hchild ih =>
    obtain ⟨hname, htidy⟩ := h.of_get? hchild
    exact h.insert hname (ih htidy)
  | case3 => exact h
  | case4 => exact h

end Entry.Tidy

namespace Disk

open PluginHost.Path Entry

variable {d d' : Disk} {path : String} {place q : List String} {segments : List (List Char)} {bytes : List UInt8}

/-- All directories are in order, and paths start at names. -/
structure Tidy (d : Disk) : Prop where
  root : (Entry.directory d.root).Tidy
  working : ∀ n ∈ d.working, IsName n

/-- Steps lead from names to names. -/
theorem isName_of_walk (hplace : ∀ n ∈ place, IsName n) (hsegments : ∀ s ∈ segments, isIdle s = false ∧ '/' ∉ s)
    (h : d.walk place segments = .ok q) : ∀ n ∈ q, IsName n := by
  induction segments generalizing place with
  | nil =>
    cases h
    exact hplace
  | cons s rest ih =>
    rw [List.forall_mem_cons] at hsegments
    obtain ⟨⟨hidle, hslash⟩, hsegments⟩ := hsegments
    obtain ⟨next, hstep, hrest⟩ := walk_cons_eq_ok_iff.mp h
    refine ih ?_ hsegments hrest
    have honward := (step_eq_ok_iff.mp hstep).2
    by_cases hparent : s = ['.', '.']
    · subst hparent
      cases honward
      exact fun n hn => hplace n (List.dropLast_subset _ hn)
    · rw [onward_name hidle hparent honward]
      refine List.forall_mem_append.mpr ⟨hplace, List.forall_mem_singleton.mpr ?_⟩
      have hne : s ≠ [] ∧ s ≠ ['.'] := by simpa [isIdle] using hidle
      constructor <;> rw [String.toList_ofList]
      exacts [hne.1, hne.2, hparent, hslash]

namespace Tidy

theorem isName_of_place (h : d.Tidy) (hplace : d.place path = .ok q) : ∀ n ∈ q, IsName n := by
  refine isName_of_walk ?_ (fun s hs => ?_) (walk_steps_of_place hplace)
  · rw [start]
    split
    · exact fun n hn => absurd hn List.not_mem_nil
    · exact h.working
  · obtain ⟨hmem, hidle⟩ := List.mem_filter.mp hs
    exact ⟨by simpa using hidle, not_mem_of_mem_segments hmem⟩

theorem modify (h : d.Tidy) {f : Entry → Entry} (hf : (f (.directory d.root)).Tidy) : (d.modify f).Tidy := by
  rw [Disk.modify]
  split
  · next entries hentries => exact ⟨hentries ▸ hf, h.working⟩
  · exact h

theorem put (h : d.Tidy) {new : Entry} (hnew : new.Tidy) (hplace : d.place path = .ok q) :
    (d.modify (Entry.put new q)).Tidy :=
  h.modify (h.root.put (h.isName_of_place hplace) hnew)

theorem lookup (h : d.Tidy) {e : Entry} (hlookup : d.lookup path = .ok e) : e.Tidy := by
  obtain ⟨place, -, hfound⟩ := bind_eq_ok_iff.mp hlookup
  split at hfound
  · split at hfound
    · cases hfound
    · cases hfound
      exact .file _
  · next found _ hentry =>
    cases hfound
    exact h.root.find? hentry
  · cases hfound

theorem makeDirectory (h : d.Tidy) (hmade : d.makeDirectory path = .ok d') : d'.Tidy := by
  obtain ⟨q, hplace, -, rfl⟩ := makeDirectory_eq_put hmade
  exact h.put .empty hplace

theorem makeDirectories (h : d.Tidy) (path : String) : (d.makeDirectories path).1.Tidy :=
  makeDirectoriesWithin_induction Tidy (fun _ => True) (fun _ _ => trivial)
    (fun _ _ htidy hmade => htidy.makeDirectory hmade) _ trivial h

theorem write (h : d.Tidy) (hwritten : d.write path bytes = .ok d') : d'.Tidy := by
  obtain ⟨q, hplace, -, rfl⟩ := write_eq_put hwritten
  exact h.put (.file bytes) hplace

theorem removeFile (h : d.Tidy) (hremoved : d.removeFile path = .ok d') : d'.Tidy := by
  obtain ⟨place, -, hdone⟩ := bind_eq_ok_iff.mp hremoved
  split at hdone
  · split at hdone
    · cases hdone
    · cases hdone
      exact h.modify (h.root.remove place)
  · cases hdone
  · cases hdone

theorem removeTree (h : d.Tidy) (path : String) : (d.removeTree path).Tidy := by
  rw [Disk.removeTree]
  split
  · exact h.modify (h.root.remove _)
  · exact h

theorem makeTemporary (h : d.Tidy) {start : String} (hmade : d.makeTemporary start = .ok (d', path)) : d'.Tidy := by
  obtain ⟨next, hnext, hdone⟩ := bind_eq_ok_iff.mp hmade
  cases hdone
  exact ⟨(h.makeDirectory hnext).root, (h.makeDirectory hnext).working⟩

end Tidy

end Disk

end PluginHost
