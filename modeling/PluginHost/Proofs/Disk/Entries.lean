import Mathlib.Data.List.Basic
import PluginHost.Disk.Disk
import PluginHost.Proofs.Disk.Steps
/-!
What a change at one place of a disk does to what is found at others, and how absolute paths of names lead
to their places.

A place is the list of names that lead to it. A path of names leads to its place if that lies in a directory
that is there, and if path and names are not too long: only the former depends on the disk. So everything
that is asked of a disk by such a path comes down to `Disk.entryAt?`.
-/

namespace PluginHost

theorem bind_eq_ok_iff {ε α β : Type} {x : Except ε α} {f : α → Except ε β} {b : β} :
    x >>= f = .ok b ↔ ∃ a, x = .ok a ∧ f a = .ok b := by
  cases x <;> simp [bind, Except.bind]

theorem Assoc.get?_filter_ne {α : Type} (entries : List (String × α)) (name other : String) :
    get? (entries.filter fun e => e.1 ≠ name) other = if other = name then none else get? entries other := by
  unfold get?
  rw [List.find?_filter]
  by_cases h : other = name
  · rw [if_pos h, Option.map_eq_none_iff, List.find?_eq_none]
    intro e _ hboth
    simp only [decide_eq_true_eq] at hboth
    exact hboth.1 (hboth.2.trans h)
  · rw [if_neg h]
    congr 2
    funext e
    exact decide_eq_decide.mpr (by simpa using fun he : e.1 = other => he ▸ h)

namespace Entry

variable {new e : Entry} {p q : List String} {name : String}

theorem find?_append (p q : List String) (e : Entry) : find? (p ++ q) e = (find? p e).bind (find? q) := by
  induction p generalizing e with
  | nil => rfl
  | cons name rest ih =>
    cases e with
    | file bytes => rfl
    | directory entries =>
      rw [List.cons_append, find?, find?, Option.bind_assoc]
      exact congrArg _ (funext ih)

theorem find?_cons_eq_some (h : find? (p ++ name :: q) e = some new) :
    ∃ entries, find? p e = some (directory entries) := by
  rw [find?_append, Option.bind_eq_some_iff] at h
  obtain ⟨found, hfound, hrest⟩ := h
  cases found with
  | file bytes => cases hrest
  | directory entries => exact ⟨entries, hfound⟩

/-- Neither of two places is the other or lies in it. -/
def Apart (p q : List String) : Prop := ¬ p <+: q ∧ ¬ q <+: p

theorem Apart.of_cons {rest others : List String} (h : Apart (name :: rest) (name :: others)) :
    Apart rest others :=
  ⟨fun hprefix => h.1 (List.cons_prefix_cons.mpr ⟨rfl, hprefix⟩),
    fun hprefix => h.2 (List.cons_prefix_cons.mpr ⟨rfl, hprefix⟩)⟩

theorem Apart.append (h : Apart p q) (rest : List String) : Apart (p ++ rest) q := by
  refine ⟨fun hprefix => h.1 ((List.prefix_append p rest).trans hprefix), fun hprefix => ?_⟩
  exact (List.prefix_or_prefix_of_prefix hprefix (List.prefix_append p rest)).elim h.2 h.1

theorem Apart.cons (h : Apart p q) (name : String) : Apart (name :: p) (name :: q) :=
  ⟨fun hprefix => h.1 (List.cons_prefix_cons.mp hprefix).2,
    fun hprefix => h.2 (List.cons_prefix_cons.mp hprefix).2⟩

theorem apart_of_ne {other : String} (h : name ≠ other) (p q : List String) : Apart (name :: p) (other :: q) :=
  ⟨fun hprefix => h (List.cons_prefix_cons.mp hprefix).1,
    fun hprefix => h (List.cons_prefix_cons.mp hprefix).1.symm⟩

theorem find?_put_of_apart (h : Apart p q) : find? q (put new p e) = find? q e := by
  fun_induction put new p e generalizing q with
  | case1 e => exact absurd List.nil_prefix h.1
  | case2 name entries =>
    cases q with
    | nil => exact absurd List.nil_prefix h.2
    | cons other others =>
      have hne : other ≠ name := fun heq => h.1 (heq ▸ List.cons_prefix_cons.mpr ⟨rfl, List.nil_prefix⟩)
      rw [find?, find?, Assoc.get?_insert, if_neg hne]
  | case3 name rest entries hrest child hchild ih =>
    cases q with
    | nil => exact absurd List.nil_prefix h.2
    | cons other others =>
      rw [find?, find?, Assoc.get?_insert]
      split
      · next heq =>
        subst heq
        rw [hchild, Option.bind_some, Option.bind_some, ih h.of_cons]
      · rfl
  | case4 => rfl
  | case5 => rfl

theorem find?_remove_of_apart (h : Apart p q) : find? q (remove p e) = find? q e := by
  fun_induction remove p e generalizing q with
  | case1 name entries =>
    cases q with
    | nil => exact absurd List.nil_prefix h.2
    | cons other others =>
      have hne : other ≠ name := fun heq => h.1 (heq ▸ List.cons_prefix_cons.mpr ⟨rfl, List.nil_prefix⟩)
      rw [find?, find?, Assoc.get?_filter_ne, if_neg hne]
  | case2 name rest entries hrest child hchild ih =>
    cases q with
    | nil => exact absurd List.nil_prefix h.2
    | cons other others =>
      rw [find?, find?, Assoc.get?_insert]
      split
      · next heq =>
        subst heq
        rw [hchild, Option.bind_some, Option.bind_some, ih h.of_cons]
      · rfl
  | case3 => rfl
  | case4 => rfl

/-- What is put in a directory is found there. -/
theorem find?_put_self {entries : List (String × Entry)} (h : find? p e = some (directory entries)) :
    find? (p ++ [name]) (put new (p ++ [name]) e) = some new := by
  induction p generalizing e with
  | nil =>
    cases h
    rw [List.nil_append, put, find?, Assoc.get?_insert, if_pos rfl]
    rfl
  | cons first rest ih =>
    cases e with
    | file bytes => cases h
    | directory siblings =>
      rw [find?, Option.bind_eq_some_iff] at h
      obtain ⟨child, hchild, hrest⟩ := h
      have hput : put new (first :: (rest ++ [name])) (directory siblings) =
          directory (Assoc.insert first (put new (rest ++ [name]) child) siblings) := by
        rw [put, hchild]
        exact fun h => absurd h (by simp)
      rw [List.cons_append, hput, find?, Assoc.get?_insert, if_pos rfl]
      exact ih hrest

theorem find?_remove_self (hne : p ≠ []) : find? p (remove p e) = none := by
  fun_induction remove p e with
  | case1 name entries => rw [find?, Assoc.get?_filter_ne, if_pos rfl]; rfl
  | case2 name rest entries hrest child hchild ih =>
    rw [find?, Assoc.get?_insert, if_pos rfl]
    exact ih hrest
  | case3 name rest entries hrest hnone => rw [find?, hnone]; rfl
  | case4 p e _ hfile =>
    cases p with
    | nil => exact absurd rfl hne
    | cons name rest =>
      cases e with
      | file bytes => rfl
      | directory entries => exact (hfile _ _ _ rfl rfl).elim

theorem put_directory (entries : List (String × Entry)) (hne : p ≠ []) :
    ∃ after, put new p (directory entries) = directory after := by
  unfold put
  split
  · exact absurd rfl hne
  · exact ⟨_, rfl⟩
  · split <;> exact ⟨_, rfl⟩
  · next h => cases h

theorem remove_directory (p : List String) (entries : List (String × Entry)) :
    ∃ after, remove p (directory entries) = directory after := by
  unfold remove
  split
  · exact ⟨_, rfl⟩
  · split <;> exact ⟨_, rfl⟩
  · exact ⟨_, rfl⟩

end Entry

namespace Disk

open Entry PluginHost.Path

variable {d d' : Disk} {place p q names : List String} {name : String} {new e : Entry}
  {entries : List (String × Entry)} {bytes : List UInt8}

theorem entryAt?_modify {f : Entry → Entry} (h : ∃ after, f (.directory d.root) = .directory after)
    (q : List String) : (d.modify f).entryAt? q = find? q (f (.directory d.root)) := by
  obtain ⟨after, hafter⟩ := h
  rw [modify, hafter]
  rfl

theorem entryAt?_put_of_apart (h : Apart p q) : (d.modify (put new p)).entryAt? q = d.entryAt? q := by
  have hne : p ≠ [] := fun hp => h.1 (hp ▸ List.nil_prefix)
  rw [entryAt?_modify (put_directory _ hne)]
  exact find?_put_of_apart h

theorem entryAt?_put_self (hne : p ≠ []) (h : d.entryAt? p.dropLast = some (.directory entries)) :
    (d.modify (put new p)).entryAt? p = some new := by
  rw [entryAt?_modify (put_directory _ hne)]
  obtain ⟨init, last, rfl⟩ := (List.eq_nil_or_concat' p).resolve_left hne
  rw [List.dropLast_concat] at h
  exact find?_put_self h

theorem entryAt?_remove_of_apart (h : Apart p q) : (d.modify (remove p)).entryAt? q = d.entryAt? q := by
  rw [entryAt?_modify (remove_directory _ _)]
  exact find?_remove_of_apart h

theorem entryAt?_remove_self (hne : p ≠ []) : (d.modify (remove p)).entryAt? p = none := by
  rw [entryAt?_modify (remove_directory _ _)]
  exact find?_remove_self hne

/-- Neither the path of some names nor any of the names is too long, and no null character is in them. -/
structure Fits (names : List String) : Prop where
  no_nul : (ofNames names).toList.contains '\x00' = false
  path : (Text.utf8 (ofNames names).toList).length ≤ maxPathBytes
  names : ∀ n ∈ names, (Text.utf8 n.toList).length ≤ maxNameBytes

theorem step_name (hname : IsName name) :
    d.step place name.toList = .ok p ↔
      p = place ++ [name] ∧ (Text.utf8 name.toList).length ≤ maxNameBytes ∧
        ∃ entries, d.entryAt? place = some (.directory entries) := by
  unfold step
  split
  · next hnone => simp [hnone]
  · next bytes hfile => simp [hfile]
  · next entries hdirectory =>
    split
    · next h => exact absurd h hname.ne_empty
    · next h => exact absurd h hname.ne_current
    · next h => exact absurd h hname.ne_parent
    · split
      · next hlong =>
        constructor
        · intro h
          cases h
        · exact fun h => absurd hlong (Nat.not_lt.mpr h.2.1)
      · next hshort =>
        rw [String.ofList_toList, Except.ok.injEq]
        exact ⟨fun h => ⟨h.symm, Nat.not_lt.mp hshort, entries, hdirectory⟩, fun h => h.1.symm⟩

/-- Names are followed to their place if all but the last lead to directories, for which it is enough that the
    last but one does. -/
theorem foldlM_step_names (hnames : ∀ n ∈ names ++ [name], IsName n) :
    ((names ++ [name]).map String.toList).foldlM d.step place = .ok p ↔
      p = place ++ (names ++ [name]) ∧ (∀ n ∈ names ++ [name], (Text.utf8 n.toList).length ≤ maxNameBytes) ∧
        ∃ entries, d.entryAt? (place ++ names) = some (.directory entries) := by
  induction names generalizing place with
  | nil =>
    have hname := hnames name List.mem_cons_self
    rw [List.nil_append, List.map_singleton, List.foldlM_cons]
    simp only [List.foldlM_nil, bind_pure, step_name hname, List.append_nil, List.forall_mem_singleton]
  | cons first rest ih =>
    rw [List.cons_append, List.forall_mem_cons] at hnames
    have hbind : ((first :: rest ++ [name]).map String.toList).foldlM d.step place = .ok p ↔
        ∃ q, d.step place first.toList = .ok q ∧
          ((rest ++ [name]).map String.toList).foldlM d.step q = .ok p := by
      rw [List.cons_append, List.map_cons, List.foldlM_cons, bind_eq_ok_iff]
    rw [hbind]
    constructor
    · rintro ⟨q, hfirst, hrest⟩
      obtain ⟨rfl, hshort, _⟩ := (step_name hnames.1).mp hfirst
      obtain ⟨rfl, hshorts, hdirectory⟩ := (ih hnames.2).mp hrest
      rw [List.append_assoc] at hdirectory
      exact ⟨List.append_assoc _ _ _, List.forall_mem_cons.mpr ⟨hshort, hshorts⟩, hdirectory⟩
    · rintro ⟨rfl, hshorts, entries, hdirectory⟩
      obtain ⟨hshort, hshorts⟩ := List.forall_mem_cons.mp hshorts
      refine ⟨place ++ [first], (step_name hnames.1).mpr ⟨rfl, hshort, find?_cons_eq_some hdirectory⟩,
        (ih hnames.2).mpr ⟨(List.append_assoc place [first] _).symm, hshorts, entries, ?_⟩⟩
      rw [List.append_assoc]
      exact hdirectory

/-- What is there lies in a directory. -/
theorem parent_of_entryAt? (hne : names ≠ []) (h : d.entryAt? names = some e) :
    ∃ entries, d.entryAt? names.dropLast = some (.directory entries) := by
  obtain ⟨init, last, rfl⟩ := (List.eq_nil_or_concat' names).resolve_left hne
  rw [List.dropLast_concat]
  exact find?_cons_eq_some h

theorem place_ofNames (hplace : IsPlace names) :
    d.place (ofNames names) = .ok p ↔
      p = names ∧ Fits names ∧ ∃ entries, d.entryAt? names.dropLast = some (.directory entries) := by
  rw [Disk.place, isEmpty_ofNames hplace.ne_nil, isAbsolute_ofNames hplace.ne_nil]
  obtain ⟨init, name, rfl⟩ := (List.eq_nil_or_concat' names).resolve_left hplace.ne_nil
  have hlast : ¬ name.toList.isEmpty = true :=
    fun h => (hplace.isName name (by simp)).ne_empty (List.isEmpty_iff.mp h)
  have hsegments : ((segments (ofNames (init ++ [name]))).reverse.dropWhile List.isEmpty).reverse =
      [] :: (init ++ [name]).map String.toList := by
    rw [segments_ofNames hplace.isName, List.map_append, List.map_singleton, ← List.cons_append,
      List.reverse_append, List.reverse_singleton, List.singleton_append, List.dropWhile_cons_of_neg hlast,
      List.reverse_cons, List.reverse_reverse]
  have hsteps : ([] :: (init ++ [name]).map String.toList).foldlM d.step [] =
      ((init ++ [name]).map String.toList).foldlM d.step [] := rfl
  rw [List.dropLast_concat]
  split
  · next hnul => exact ⟨fun h => (nomatch h), fun h => by rw [h.2.1.no_nul] at hnul; cases hnul⟩
  · next hnul =>
    rw [if_neg Bool.false_ne_true]
    split
    · next hlong => exact ⟨fun h => (nomatch h), fun h => absurd h.2.1.path (Nat.not_le.mpr hlong)⟩
    · next hshort =>
      simp only [hsegments, if_true, hsteps, foldlM_step_names hplace.isName, List.nil_append]
      exact and_congr_right fun _ => ⟨fun h => ⟨⟨by simpa using hnul, Nat.not_lt.mp hshort, h.1⟩, h.2⟩,
        fun h => ⟨h.1.names, h.2⟩⟩

theorem namesDirectory_ofNames (hplace : IsPlace names) : namesDirectory (ofNames names) = false :=
  decide_eq_false (getLast?_ofNames_ne_slash hplace)

/-- A path of names finds what its place has. -/
theorem lookup_ofNames (hplace : IsPlace names) :
    d.lookup (ofNames names) = .ok e ↔ Fits names ∧ d.entryAt? names = some e := by
  unfold lookup
  cases hfollow : d.place (ofNames names) with
  | error fault =>
    refine ⟨fun h => (nomatch h), fun ⟨hfits, hentry⟩ => ?_⟩
    have hfound := (place_ofNames hplace).mpr ⟨rfl, hfits, parent_of_entryAt? hplace.ne_nil hentry⟩
    rw [hfollow] at hfound
    cases hfound
  | ok found =>
    obtain ⟨rfl, hfits, _⟩ := (place_ofNames hplace).mp hfollow
    simp only [bind, Except.bind, namesDirectory_ofNames hplace]
    cases d.entryAt? found with
    | none => simp [throw, throwThe, MonadExceptOf.throw]
    | some e => cases e <;> simp [hfits, pure, Except.pure]

theorem contains_ofNames (hplace : IsPlace names) (hfits : Fits names) :
    d.contains (ofNames names) = (d.entryAt? names).isSome := by
  cases hentry : d.entryAt? names with
  | some e =>
    rw [contains, (lookup_ofNames hplace).mpr ⟨hfits, hentry⟩]
    rfl
  | none =>
    rw [contains]
    split
    · next e hfound =>
      have hpresent := ((lookup_ofNames hplace).mp hfound).2
      rw [hentry] at hpresent
      cases hpresent
    · rfl

theorem isDirectory_ofNames (hplace : IsPlace names) (hfits : Fits names)
    (h : d.entryAt? names = some (.directory entries)) : d.isDirectory (ofNames names) = true := by
  rw [isDirectory, (lookup_ofNames hplace).mpr ⟨hfits, h⟩]

theorem read_ofNames (hplace : IsPlace names) (hfits : Fits names) (h : d.entryAt? names = some (.file bytes)) :
    d.read (ofNames names) = .ok bytes := by
  rw [read, (lookup_ofNames hplace).mpr ⟨hfits, h⟩]
  rfl

theorem makeDirectory_eq_ok (hplace : IsPlace names) (h : d.makeDirectory (ofNames names) = .ok d') :
    Fits names ∧ d.entryAt? names = none ∧ (∃ entries, d.entryAt? names.dropLast = some (.directory entries)) ∧
      d' = d.modify (put (.directory []) names) := by
  unfold makeDirectory at h
  cases hfollow : d.place (ofNames names) with
  | error fault =>
    rw [hfollow] at h
    cases h
  | ok found =>
    rw [hfollow] at h
    obtain ⟨rfl, hfits, hdirectory⟩ := (place_ofNames hplace).mp hfollow
    simp only [bind, Except.bind] at h
    split at h
    · cases h
    · next hnone =>
      cases h
      exact ⟨hfits, hnone, hdirectory, rfl⟩

theorem write_eq_ok (hplace : IsPlace names) (h : d.write (ofNames names) bytes = .ok d') :
    Fits names ∧ (∃ entries, d.entryAt? names.dropLast = some (.directory entries)) ∧
      d' = d.modify (put (.file bytes) names) := by
  unfold write at h
  cases hfollow : d.place (ofNames names) with
  | error fault =>
    rw [hfollow] at h
    cases h
  | ok found =>
    rw [hfollow] at h
    obtain ⟨rfl, hfits, hdirectory⟩ := (place_ofNames hplace).mp hfollow
    simp only [bind, Except.bind, namesDirectory_ofNames hplace] at h
    split at h
    · cases h
    · cases h
      exact ⟨hfits, hdirectory, rfl⟩
    · cases h
      exact ⟨hfits, hdirectory, rfl⟩

/-- A path of names that leads nowhere leaves the disk as it is. -/
theorem removeTree_ofNames (hplace : IsPlace names) :
    d.removeTree (ofNames names) = d.modify (remove names) ∨
      d.removeTree (ofNames names) = d ∧ (Fits names → d.entryAt? names = none) := by
  rw [removeTree]
  cases hfollow : d.place (ofNames names) with
  | ok found =>
    obtain ⟨rfl, _⟩ := (place_ofNames hplace).mp hfollow
    exact Or.inl rfl
  | error fault =>
    refine Or.inr ⟨rfl, fun hfits => Option.eq_none_iff_forall_ne_some.mpr fun e hentry => ?_⟩
    have hfound := (place_ofNames hplace).mpr ⟨rfl, hfits, parent_of_entryAt? hplace.ne_nil hentry⟩
    rw [hfollow] at hfound
    cases hfound

theorem entryAt?_removeTree_of_apart (hplace : IsPlace names) (h : Apart names q) :
    (d.removeTree (ofNames names)).entryAt? q = d.entryAt? q := by
  rcases removeTree_ofNames (d := d) hplace with hremoved | ⟨hkept, _⟩
  · rw [hremoved, entryAt?_remove_of_apart h]
  · rw [hkept]

theorem entryAt?_removeTree_self (hplace : IsPlace names) (hfits : Fits names) :
    (d.removeTree (ofNames names)).entryAt? names = none := by
  rcases removeTree_ofNames (d := d) hplace with hremoved | ⟨hkept, hnone⟩
  · rw [hremoved, entryAt?_remove_self hplace.ne_nil]
  · rw [hkept, hnone hfits]

end Disk

end PluginHost
