import PluginHost.Proofs.Disk.Walk
/-!
How a disk grows when files are written and directories are made.

Directories stay, and files stay as they are but for one that is written. What is new lies on the way to the
place that is meant, unless a path goes through `..` where there is no directory yet.
-/

namespace PluginHost.Disk

open Entry PluginHost.Path

variable {d d' d'' : Disk} {path : String} {p q except way : List String} {s : List Char}
  {segments rest : List (List Char)} {new e : Entry} {bytes : List UInt8}

/-- Directories stay directories, and files stay as they are but for one that may be written. -/
structure Keeps (d d' : Disk) (except : List String) : Prop where
  working : d'.working = d.working
  directory : ∀ {q}, d.HasDirectory q → d'.HasDirectory q
  file : ∀ {q bytes}, q ≠ except → d.entryAt? q = some (.file bytes) → d'.entryAt? q = some (.file bytes)

namespace Keeps

theorem refl (d : Disk) (except : List String) : d.Keeps d except := ⟨rfl, id, fun _ h => h⟩

theorem trans (h : d.Keeps d' except) (h' : d'.Keeps d'' except) : d.Keeps d'' except :=
  ⟨h'.working.trans h.working, fun hq => h'.directory (h.directory hq),
    fun hq hfile => h'.file hq (h.file hq hfile)⟩

theorem start (h : d.Keeps d' except) (path : String) : d'.start path = d.start path := by
  rw [Disk.start, Disk.start, h.working]

/-- A walk goes on as it did. -/
theorem walk (h : d.Keeps d' except) (hwalk : d.walk p segments = .ok q) : d'.walk p segments = .ok q := by
  induction segments generalizing p with
  | nil => exact hwalk
  | cons s rest ih =>
    obtain ⟨next, hstep, hrest⟩ := walk_cons_eq_ok_iff.mp hwalk
    obtain ⟨hdirectory, honward⟩ := step_eq_ok_iff.mp hstep
    exact walk_cons_eq_ok_iff.mpr ⟨next, step_eq_ok_iff.mpr ⟨h.directory hdirectory, honward⟩, ih hrest⟩

theorem place (h : d.Keeps d' except) (hplace : d.place path = .ok q) : d'.place path = .ok q := by
  obtain ⟨hsayable, hwalk⟩ := place_eq_ok_iff.mp hplace
  rw [place_eq_ok_iff, h.start]
  exact ⟨hsayable, h.walk hwalk⟩

end Keeps

theorem HasDirectory.above (h : d.HasDirectory q) (hbegins : p <+: q) : d.HasDirectory p := by
  by_cases heq : p = q
  · exact heq ▸ h
  · exact hasDirectory_above h.choose_spec hbegins heq

/-- What is found on a disk stands apart from a free place or is a directory above it, unless it is the file at
    the place. -/
theorem apart_or_above (hplace : d.place path = .ok p) (hfree : ¬ d.HasDirectory p)
    (hentry : d.entryAt? q = some e) : q = p ∨ Apart p q ∨ q <+: p ∧ q ≠ p ∧ d.HasDirectory q := by
  by_cases hbelow : p <+: q
  · by_contra! hother
    exact hfree (hasDirectory_above hentry hbelow (Ne.symm hother.1))
  by_cases habove : q <+: p
  · obtain hdirectory | ⟨dir, name, rfl, hdir⟩ := place_end hplace
    · exact absurd hdirectory hfree
    · rcases List.prefix_concat_iff.mp habove with rfl | hbegins
      · exact Or.inl rfl
      · exact Or.inr (Or.inr ⟨habove, fun heq => hbelow (heq ▸ List.prefix_rfl), hdir.above hbegins⟩)
  · exact Or.inr (Or.inl ⟨hbelow, habove⟩)

/-- An entry is put where no directory is. -/
theorem put_self (new : Entry) (hplace : d.place path = .ok p) (hfree : ¬ d.HasDirectory p) :
    (d.modify (put new p)).entryAt? p = some new := by
  obtain hdirectory | ⟨dir, name, rfl, entries, hdir⟩ := place_end hplace
  · exact absurd hdirectory hfree
  · exact entryAt?_put_self (by simp) (by rwa [List.dropLast_concat])

theorem keeps_put (hplace : d.place path = .ok p) (hfree : ¬ d.HasDirectory p)
    (hexcept : ∀ bytes, d.entryAt? p = some (.file bytes) → p = except) :
    d.Keeps (d.modify (put new p)) except where
  working := by
    rw [modify]
    split <;> rfl
  directory {q} hq := by
    obtain ⟨entries, hentry⟩ := hq
    obtain rfl | hapart | ⟨hbegins, hne, _⟩ := apart_or_above hplace hfree hentry
    · exact absurd ⟨entries, hentry⟩ hfree
    · exact ⟨entries, (entryAt?_put_of_apart hapart).trans hentry⟩
    · exact hasDirectory_above (put_self new hplace hfree) hbegins hne
  file {q bytes} hne hentry := by
    obtain rfl | hapart | ⟨_, _, hdirectory⟩ := apart_or_above hplace hfree hentry
    · exact absurd (hexcept bytes hentry) hne
    · exact (entryAt?_put_of_apart hapart).trans hentry
    · exact absurd hdirectory (not_hasDirectory_of_file hentry)

/-- Something new is found on the way to a place, and it is a directory unless it is at that place. -/
def NewOn (way : List String) (d d' : Disk) : Prop :=
  ∀ q e, d.entryAt? q = none → d'.entryAt? q = some e → q <+: way ∧ (q ≠ way → d'.HasDirectory q)

theorem newOn_refl (way : List String) (d : Disk) : NewOn way d d := by
  intro q e hnone hsome
  rw [hnone] at hsome
  cases hsome

theorem NewOn.trans (h : NewOn way d d') (h' : NewOn way d' d'') (hkeeps : d'.Keeps d'' except) :
    NewOn way d d'' := by
  intro q e hnone hsome
  cases hmiddle : d'.entryAt? q with
  | none => exact h' q e hmiddle hsome
  | some found =>
    obtain ⟨hbegins, hdirectory⟩ := h q found hnone hmiddle
    exact ⟨hbegins, fun hne => hkeeps.directory (hdirectory hne)⟩

/-- What is put is all that is new, if nothing is in it. -/
theorem newOn_put (hplace : d.place path = .ok p) (hfree : ¬ d.HasDirectory p) (hway : p <+: way)
    (hempty : ∀ name rest, find? (name :: rest) new = none) (hnew : p ≠ way → ∃ entries, new = .directory entries) :
    NewOn way d (d.modify (put new p)) := by
  have hself := put_self new hplace hfree
  intro q e hnone hsome
  -- Below the place there is nothing in what was put, above it were directories already.
  have hq : q = p := by
    by_contra hne
    by_cases hbelow : p <+: q
    · obtain ⟨_ | ⟨name, rest⟩, rfl⟩ := hbelow
      · exact hne (List.append_nil p)
      · rw [Disk.entryAt?, find?_append] at hsome
        rw [Disk.entryAt?] at hself
        rw [hself, Option.bind_some, hempty] at hsome
        cases hsome
    by_cases habove : q <+: p
    · obtain hdirectory | ⟨dir, name, rfl, hdir⟩ := place_end hplace
      · exact hfree hdirectory
      · exact not_hasDirectory_of_none hnone (hdir.above ((List.prefix_concat_iff.mp habove).resolve_left hne))
    · rw [entryAt?_put_of_apart ⟨hbelow, habove⟩, hnone] at hsome
      cases hsome
  subst hq
  refine ⟨hway, fun hne => ?_⟩
  obtain ⟨entries, rfl⟩ := hnew hne
  exact ⟨entries, hself⟩

/-! The way of a path. -/

/-- Steps lead along a way: every `..` among them leaves a directory that is there already. -/
def Heads (d : Disk) (first : List String) (steps : List (List Char)) (way : List String) : Prop :=
  ∃ before after p, steps = before ++ after ∧ (∀ s ∈ after, isIdle s = false ∧ s ≠ ['.', '.']) ∧
    d.walk first before = .ok p ∧ way = p ++ after.map String.ofList

/-- A walk down to something that is on another disk as well. -/
theorem walk_of_entry (hnames : ∀ s ∈ segments, isIdle s = false ∧ s ≠ ['.', '.'])
    (hwalk : d'.walk p segments = .ok q) (hentry : d.entryAt? q = some e) : d.walk p segments = .ok q := by
  induction segments generalizing p with
  | nil => exact hwalk
  | cons s rest ih =>
    have hend := walk_names hnames hwalk
    obtain ⟨next, hstep, hrest⟩ := walk_cons_eq_ok_iff.mp hwalk
    rw [List.forall_mem_cons] at hnames
    have hdirectory : d.HasDirectory p := by
      refine hasDirectory_above hentry (hend ▸ List.prefix_append _ _) fun heq => ?_
      rw [heq, List.map_cons] at hend
      simp at hend
    exact walk_cons_eq_ok_iff.mpr
      ⟨next, step_eq_ok_iff.mpr ⟨hdirectory, (step_eq_ok_iff.mp hstep).2⟩, ih hnames.2 hrest⟩

namespace Heads

variable {first : List String} {steps more : List (List Char)}

theorem keeps (h : d.Heads first steps way) (hkeeps : d.Keeps d' except) : d'.Heads first steps way := by
  obtain ⟨before, after, p, hsteps, hnames, hwalk, hway⟩ := h
  exact ⟨before, after, p, hsteps, hnames, hkeeps.walk hwalk, hway⟩

/-- Names lead further along the way. -/
theorem append (h : d.Heads first steps way) (hmore : ∀ s ∈ more, isIdle s = false ∧ s ≠ ['.', '.']) :
    d.Heads first (steps ++ more) (way ++ more.map String.ofList) := by
  obtain ⟨before, after, p, rfl, hnames, hwalk, rfl⟩ := h
  refine ⟨before, after ++ more, p, List.append_assoc _ _ _, ?_, hwalk, ?_⟩
  · exact List.forall_mem_append.mpr ⟨hnames, hmore⟩
  · rw [List.map_append, List.append_assoc]

/-- A walk of all steps ends where the way does, also when the disk has grown. -/
theorem eq_way (h : d.Heads first steps way) (hkeeps : d.Keeps d' except) (hwalk : d'.walk first steps = .ok q) :
    q = way := by
  obtain ⟨before, after, p, rfl, hnames, hbefore, rfl⟩ := h
  obtain ⟨p', hbefore', hafter⟩ := walk_append_eq_ok_iff.mp hwalk
  cases (hkeeps.walk hbefore).symm.trans hbefore'
  exact walk_names hnames hafter

/-- What is at the end of the way can be walked to. -/
theorem walk_of_entry (h : d.Heads first steps way) (hkeeps : d.Keeps d' except)
    (hwalk : d'.walk first steps = .ok way) (hentry : d.entryAt? way = some e) :
    d.walk first steps = .ok way := by
  obtain ⟨before, after, p, rfl, hnames, hbefore, hway⟩ := h
  obtain ⟨p', hbefore', hafter⟩ := walk_append_eq_ok_iff.mp hwalk
  cases (hkeeps.walk hbefore).symm.trans hbefore'
  exact walk_append_eq_ok_iff.mpr ⟨p, hbefore, Disk.walk_of_entry hnames hafter hentry⟩

/-- The first steps get to a directory that is there, or to a place on the way. -/
theorem prefix_way (h : d.Heads first steps way) (hmore : more <+: steps) (hwalk : d.walk first more = .ok q)
    (hfree : ¬ d.HasDirectory q) : q <+: way := by
  obtain ⟨before, after, p, rfl, hnames, hbefore, rfl⟩ := h
  rcases List.prefix_or_prefix_of_prefix hmore (List.prefix_append before after) with ⟨others, rfl⟩ | ⟨others, rfl⟩
  · -- The walk stops at or before the last `..`, so what comes next is stepped from a directory.
    obtain ⟨q', hmore', hothers⟩ := walk_append_eq_ok_iff.mp hbefore
    cases hwalk.symm.trans hmore'
    cases others with
    | nil =>
      cases hothers
      exact List.prefix_append _ _
    | cons s rest => exact absurd (hasDirectory_of_walk (List.cons_ne_nil s rest) hothers) hfree
  · have hothers := (List.prefix_append_right_inj before).mp hmore
    obtain ⟨p', hbefore', hrest⟩ := walk_append_eq_ok_iff.mp hwalk
    cases hbefore.symm.trans hbefore'
    rw [walk_names (fun s hs => hnames s (hothers.subset hs)) hrest]
    exact (List.prefix_append_right_inj p).mpr (hothers.map _)

end Heads

/-- A path has a way of its own: where it goes through `..` there are directories already. -/
def Grounded (d : Disk) (path : String) : Prop := ∃ way, d.Heads (d.start path) (steps path) way

theorem grounded_of_no_parent (h : ['.', '.'] ∉ Path.segments path) : d.Grounded path := by
  refine ⟨_, [], steps path, d.start path, rfl, fun s hs => ?_, rfl, rfl⟩
  obtain ⟨hmem, hidle⟩ := List.mem_filter.mp hs
  exact ⟨by simpa using hidle, fun heq => h (heq ▸ hmem)⟩

theorem Keeps.grounded (hkeeps : d.Keeps d' except) (h : d.Grounded path) : d'.Grounded path := by
  obtain ⟨way, hheads⟩ := h
  exact ⟨way, hkeeps.start path ▸ hheads.keeps hkeeps⟩

/-- What a path leads to only after a disk has grown is new at the end of its way. -/
theorem Heads.new_of_lookup {init : List (List Char)} {last : List Char}
    (h : d.Heads (d.start path) (steps path) way) (hkeeps : d.Keeps d' except)
    (hsegments : Path.segments path = init ++ [last]) (hlast : isIdle last = false)
    (hbefore : ∀ found, d.lookup path ≠ .ok found) (hafter : d'.lookup path = .ok e) :
    d.entryAt? way = none ∧ d'.entryAt? way = some e ∧ d'.place path = .ok way := by
  have hname := namesDirectory_eq_false hsegments hlast
  obtain ⟨p, hplace, hentry⟩ := (lookup_eq_ok_iff hname).mp hafter
  have hwalk := walk_steps_of_place hplace
  rw [hkeeps.start] at hwalk
  cases h.eq_way hkeeps hwalk
  refine ⟨Option.eq_none_iff_forall_ne_some.mpr fun found hfound => ?_, hentry, hplace⟩
  have hthere := place_of_walk_steps (place_eq_ok_iff.mp hplace).1 hsegments hlast
    (h.walk_of_entry hkeeps hwalk hfound)
  exact hbefore found ((lookup_eq_ok_iff hname).mpr ⟨_, hthere, hfound⟩)

/-! What is done by path. -/

theorem makeDirectory_eq_put (h : d.makeDirectory path = .ok d') :
    ∃ p, d.place path = .ok p ∧ d.entryAt? p = none ∧ d' = d.modify (put (.directory []) p) := by
  obtain ⟨p, hplace, hmade⟩ := bind_eq_ok_iff.mp h
  refine ⟨p, hplace, ?_⟩
  split at hmade
  · cases hmade
  · next hnone =>
    cases hmade
    exact ⟨hnone, rfl⟩

theorem write_eq_put (h : d.write path bytes = .ok d') :
    ∃ p, d.place path = .ok p ∧ ¬ d.HasDirectory p ∧ d' = d.modify (put (.file bytes) p) := by
  obtain ⟨p, hplace, hwritten⟩ := bind_eq_ok_iff.mp h
  refine ⟨p, hplace, ?_⟩
  split at hwritten
  · cases hwritten
  · next hfile =>
    split at hwritten
    · cases hwritten
    · cases hwritten
      exact ⟨not_hasDirectory_of_file hfile, rfl⟩
  · next hnone =>
    split at hwritten
    · cases hwritten
    · cases hwritten
      exact ⟨not_hasDirectory_of_none hnone, rfl⟩

theorem makeDirectory_keeps (h : d.makeDirectory path = .ok d') (except : List String) : d.Keeps d' except := by
  obtain ⟨p, hplace, hnone, rfl⟩ := makeDirectory_eq_put h
  refine keeps_put hplace (not_hasDirectory_of_none hnone) fun bytes hfile => ?_
  rw [hnone] at hfile
  cases hfile

theorem write_keeps (h : d.write path bytes = .ok d') (hplace : d.place path = .ok p) : d.Keeps d' p := by
  obtain ⟨q, hq, hfree, rfl⟩ := write_eq_put h
  cases hplace.symm.trans hq
  exact keeps_put hplace hfree fun _ _ => rfl

/-- What holds of a disk still holds after directories were made, if it does after each of them. Only the path
    and those that it lies in are made. -/
theorem makeDirectoriesWithin_induction (Holds : Disk → Prop) (Within : String → Prop)
    (hparent : ∀ {path parent}, Within path → parent? path = some parent → Within parent)
    (hmake : ∀ {d d' path}, Within path → path.isEmpty = false → Holds d → d.makeDirectory path = .ok d' → Holds d')
    (fuel : Nat) (hpath : Within path) (hd : Holds d) : Holds (d.makeDirectoriesWithin fuel path).1 := by
  fun_induction makeDirectoriesWithin fuel d path with
  | case1 | case2 | case4 | case8 => exact hd
  | case3 fuel d path hne d' hmade => exact hmake hpath (by simpa using hne) hd hmade
  | case5 fuel d path hne hmissing parent hparent? d' fault hfailed ih =>
    rw [hfailed] at ih
    exact ih (hparent hpath hparent?) hd
  | case6 fuel d path hne hmissing parent hparent? d' hdone d'' hmade ih =>
    rw [hdone] at ih
    exact hmake hpath (by simpa using hne) (ih (hparent hpath hparent?) hd) hmade
  | case7 fuel d path hne hmissing parent hparent? d' hdone fault hfailed ih =>
    rw [hdone] at ih
    exact ih (hparent hpath hparent?) hd

theorem makeDirectories_keeps (d : Disk) (path : String) (except : List String) :
    d.Keeps (d.makeDirectories path).1 except :=
  makeDirectoriesWithin_induction (fun d' => d.Keeps d' except) (fun _ => True) (fun _ _ => trivial)
    (fun _ _ hkept hmade => hkept.trans (makeDirectory_keeps hmade except)) _ trivial (.refl d except)

/-- Directories are made on the way of the path that they are made for. -/
theorem makeDirectories_newOn {parent : String} (hheads : d.Heads (d.start path) (steps path) way)
    (hparent : parent? path = some parent) : NewOn way d (d.makeDirectories parent).1 := by
  have hdone := makeDirectoriesWithin_induction (fun d' => d.Keeps d' [] ∧ NewOn way d d')
    (fun part => part = "" ∨ steps part <+: steps path ∧ isAbsolute part = isAbsolute path)
    ?_ ?_ ((Path.segments parent).length + 1) (steps_parent? hparent) ⟨.refl d [], newOn_refl way d⟩
  · exact hdone.2
  · rintro part above (rfl | ⟨hsteps, habsolute⟩) habove
    · cases habove
    · refine (steps_parent? habove).imp_right fun ⟨hless, hsame⟩ => ⟨hless.trans hsteps, hsame.trans habsolute⟩
  · rintro d' d'' part hpart hne ⟨hkeeps, hnew⟩ hmade
    have hkept := makeDirectory_keeps hmade []
    obtain ⟨q, hq, hnone, rfl⟩ := makeDirectory_eq_put hmade
    have hfree := not_hasDirectory_of_none hnone
    refine ⟨hkeeps.trans hkept, hnew.trans ?_ hkept⟩
    obtain rfl | ⟨hsteps, habsolute⟩ := hpart
    · cases hne
    · have hwalk := walk_steps_of_place hq
      rw [hkeeps.start, start, habsolute, ← start] at hwalk
      refine newOn_put hq hfree ((hheads.keeps hkeeps).prefix_way hsteps hwalk hfree) ?_ fun _ => ⟨[], rfl⟩
      exact fun _ _ => rfl

/-- A file is written at the end of the way of its path. -/
theorem write_newOn (hheads : d.Heads (d.start path) (steps path) way) (h : d.write path bytes = .ok d') :
    NewOn way d d' := by
  obtain ⟨q, hq, hfree, rfl⟩ := write_eq_put h
  have hway := hheads.eq_way (.refl d []) (walk_steps_of_place hq)
  exact newOn_put hq hfree (hway ▸ List.prefix_rfl) (fun _ _ => rfl) fun hne => absurd hway hne

end PluginHost.Disk
