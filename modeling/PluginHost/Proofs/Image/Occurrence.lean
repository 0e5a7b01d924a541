import PluginHost.Image.TypeRef
/-!
Occurrences: which references a reference is made of.

`flatten` lists them and leaves out what was listed before, together with what it holds. Main
statement: nothing is lost by that, because when a reference turns up again everything in it has
been listed too.
-/

namespace PluginHost.TypeRef

/-- `t` stands strictly inside `root`: it is a generic argument of `root` or of something inside it. -/
inductive Nested (t : TypeRef) : TypeRef → Prop
  | argument {root : TypeRef} : t ∈ root.genericArguments → Nested t root
  | deeper {root arg : TypeRef} : arg ∈ root.genericArguments → Nested t arg → Nested t root

mutual

/-- A reference and everything inside it, each reference before its generic arguments. -/
def occurrences : TypeRef → List TypeRef
  | ⟨ns, name, args⟩ => ⟨ns, name, args⟩ :: occurrencesAll args

def occurrencesAll : List TypeRef → List TypeRef
  | [] => []
  | t :: rest => occurrences t ++ occurrencesAll rest

end

theorem occurrences_eq (t : TypeRef) :
    t.occurrences = t :: occurrencesAll t.genericArguments := by
  cases t
  rw [occurrences]

mutual

theorem mem_occurrences_iff {t : TypeRef} : ∀ root : TypeRef,
    t ∈ root.occurrences ↔ t = root ∨ Nested t root
  | ⟨ns, name, args⟩ => by
    rw [occurrences_eq, List.mem_cons, mem_occurrencesAll_iff_nested]
    constructor
    · rintro (rfl | ⟨u, hu, rfl | hnested⟩)
      · exact Or.inl rfl
      · exact Or.inr (.argument hu)
      · exact Or.inr (.deeper hu hnested)
    · rintro (rfl | hnested)
      · exact Or.inl rfl
      · cases hnested with
        | argument hu => exact Or.inr ⟨t, hu, Or.inl rfl⟩
        | deeper hu hnested => exact Or.inr ⟨_, hu, Or.inr hnested⟩

theorem mem_occurrencesAll_iff_nested {t : TypeRef} : ∀ ts : List TypeRef,
    t ∈ occurrencesAll ts ↔ ∃ u ∈ ts, t = u ∨ Nested t u
  | [] => by simp [occurrencesAll]
  | u :: rest => by
    simp [occurrencesAll, mem_occurrences_iff u, mem_occurrencesAll_iff_nested rest]

end

/-- What stands strictly inside a reference is listed after the reference itself. -/
theorem mem_occurrencesAll_arguments_iff {t root : TypeRef} :
    t ∈ occurrencesAll root.genericArguments ↔ Nested t root := by
  rw [mem_occurrencesAll_iff_nested]
  constructor
  · rintro ⟨u, hu, rfl | hnested⟩
    · exact .argument hu
    · exact .deeper hu hnested
  · rintro (hu | ⟨hu, hnested⟩)
    · exact ⟨t, hu, Or.inl rfl⟩
    · exact ⟨_, hu, Or.inr hnested⟩

theorem Nested.trans {t u root : TypeRef} (htu : Nested t u) (hu : Nested u root) :
    Nested t root := by
  induction hu with
  | argument hmem => exact .deeper hmem htu
  | deeper hmem _ ih => exact .deeper hmem ih

theorem nodes_le_nodesAll {t : TypeRef} {ts : List TypeRef} (hmem : t ∈ ts) :
    t.nodes ≤ nodesAll ts := by
  induction ts with
  | nil => cases hmem
  | cons u rest ih =>
    rw [nodesAll]
    rcases List.mem_cons.mp hmem with rfl | hrest
    · omega
    · have := ih hrest
      omega

theorem Nested.nodes_lt {t root : TypeRef} (hnested : Nested t root) : t.nodes < root.nodes := by
  induction hnested with
  | @argument root hmem =>
    have := nodes_le_nodesAll hmem
    have := nodes_eq root
    omega
  | @deeper root arg hmem _ ih =>
    have := nodes_le_nodesAll hmem
    have := nodes_eq root
    omega

theorem not_nested_self (t : TypeRef) : ¬ Nested t t := fun hnested =>
  Nat.lt_irrefl _ hnested.nodes_lt

/-- The references of a list that were not seen before, each where it stands first. -/
def unseen (seen : List TypeRef) : List TypeRef → List TypeRef
  | [] => []
  | t :: rest => if t ∈ seen then unseen seen rest else t :: unseen (t :: seen) rest

theorem mem_unseen_iff {t : TypeRef} {seen ts : List TypeRef} :
    t ∈ unseen seen ts ↔ t ∈ ts ∧ t ∉ seen := by
  induction ts generalizing seen with
  | nil => simp [unseen]
  | cons u rest ih =>
    rw [unseen]
    split
    · next hseen =>
      rw [ih, List.mem_cons]
      constructor
      · rintro ⟨hrest, hnew⟩
        exact ⟨Or.inr hrest, hnew⟩
      · rintro ⟨rfl | hrest, hnew⟩
        · exact absurd hseen hnew
        · exact ⟨hrest, hnew⟩
    · next hnew =>
      rw [List.mem_cons, ih, List.mem_cons, List.mem_cons]
      by_cases heq : t = u
      · subst heq
        simp [hnew]
      · simp [heq]

/-- Only membership in the seen references counts. -/
theorem unseen_congr {seen seen' : List TypeRef} (hsame : ∀ t, t ∈ seen ↔ t ∈ seen')
    (ts : List TypeRef) : unseen seen ts = unseen seen' ts := by
  induction ts generalizing seen seen' with
  | nil => rfl
  | cons u rest ih =>
    have hcons : ∀ t, t ∈ u :: seen ↔ t ∈ u :: seen' := by simp [hsame]
    simp only [unseen, hsame u, ih hsame, ih hcons]

theorem unseen_append (seen ts us : List TypeRef) :
    unseen seen (ts ++ us) = unseen seen ts ++ unseen (ts ++ seen) us := by
  induction ts generalizing seen with
  | nil => rfl
  | cons t rest ih =>
    rw [List.cons_append, unseen, unseen]
    split
    · next hseen =>
      rw [ih, List.cons_append]
      congr 1
      apply unseen_congr
      grind
    · rw [ih, List.cons_append]
      congr 2
      apply unseen_congr
      grind

/-- Seeing more of what does not turn up changes nothing. -/
theorem unseen_cons_of_not_mem {t : TypeRef} {seen ts : List TypeRef} (hnot : t ∉ ts) :
    unseen (t :: seen) ts = unseen seen ts := by
  induction ts generalizing seen with
  | nil => rfl
  | cons u rest ih =>
    obtain ⟨hne, hrest⟩ := not_or.mp (fun h => hnot (List.mem_cons.mpr h))
    have hmore : unseen (t :: u :: seen) rest = unseen (u :: seen) rest := ih hrest
    have hswap : unseen (u :: t :: seen) rest = unseen (u :: seen) rest := by
      rw [← hmore]
      exact unseen_congr (by simp [or_left_comm]) rest
    have hseen : u ∈ t :: seen ↔ u ∈ seen := by simp [Ne.symm hne]
    simp only [unseen, hseen, ih hrest, hswap]

/-- What is inside a reference that was seen and turns up in `ts` was seen, too. -/
def Explored (seen ts : List TypeRef) : Prop :=
  ∀ s ∈ seen, s ∈ occurrencesAll ts → ∀ u, Nested u s → u ∈ seen

theorem visit_congr {seen seen' : List TypeRef} (hsame : ∀ t, t ∈ seen ↔ t ∈ seen')
    (pending : List TypeRef) : visit seen pending = visit seen' pending := by
  fun_induction visit seen pending generalizing seen' with
  | case1 => rw [visit]
  | case2 seen t pending hseen ih =>
    rw [visit, if_pos ((hsame t).mp hseen)]
    exact ih hsame
  | case3 seen t pending hnew ih =>
    rw [visit, if_neg (fun hseen => hnew ((hsame t).mpr hseen))]
    exact congrArg (t :: ·) (ih (by simp [hsame]))

theorem Explored.mono {seen ts us : List TypeRef} (hexplored : Explored seen ts)
    (hsub : ∀ t ∈ occurrencesAll us, t ∈ occurrencesAll ts) : Explored seen us :=
  fun s hseen hmem => hexplored s hseen (hsub s hmem)

/-- A reference that was seen and turns up again holds nothing new. -/
theorem Explored.mem_of_mem_occurrences {seen ts : List TypeRef} {t u : TypeRef}
    (hexplored : Explored seen ts) (hseen : t ∈ seen) (hmem : t ∈ occurrencesAll ts)
    (hu : u ∈ t.occurrences) : u ∈ seen := by
  rcases (mem_occurrences_iff t).mp hu with rfl | hnested
  · exact hseen
  · exact hexplored t hseen hmem u hnested

/-- A new reference does not stand inside itself, so it hides nothing of its own arguments. -/
theorem Explored.arguments {seen rest : List TypeRef} {t : TypeRef}
    (hexplored : Explored seen (t :: rest)) : Explored (t :: seen) t.genericArguments := by
  intro s hs hmem u hnested
  rcases List.mem_cons.mp hs with rfl | hseen
  · exact absurd (mem_occurrencesAll_arguments_iff.mp hmem) (not_nested_self s)
  · refine List.mem_cons_of_mem _ (hexplored s hseen ?_ u hnested)
    rw [occurrencesAll, occurrences_eq]
    exact List.mem_append_left _ (List.mem_cons_of_mem _ hmem)

/-- When the arguments of a new reference have been listed, all that is inside it was seen. -/
theorem Explored.rest {seen rest : List TypeRef} {t : TypeRef}
    (hexplored : Explored seen (t :: rest)) :
    Explored (occurrencesAll t.genericArguments ++ t :: seen) rest := by
  intro s hs hmem u hnested
  rcases List.mem_append.mp hs with hinner | hs
  · have hdeep := hnested.trans (mem_occurrencesAll_arguments_iff.mp hinner)
    exact List.mem_append_left _ (mem_occurrencesAll_arguments_iff.mpr hdeep)
  · rcases List.mem_cons.mp hs with rfl | hseen
    · exact List.mem_append_left _ (mem_occurrencesAll_arguments_iff.mpr hnested)
    · have hlater : s ∈ occurrencesAll (t :: rest) := List.mem_append_right _ hmem
      exact List.mem_append_right _ (List.mem_cons_of_mem _ (hexplored s hseen hlater u hnested))

/-- A visit of `ts` lists what is new among its occurrences, and all of them count as seen after it.
    A reference that was seen before hides nothing, because it was explored. -/
theorem visit_append (seen ts pending : List TypeRef) (hexplored : Explored seen ts) :
    visit seen (ts ++ pending) =
      unseen seen (occurrencesAll ts) ++ visit (occurrencesAll ts ++ seen) pending := by
  match ts with
  | [] => rfl
  | t :: rest =>
    rw [List.cons_append, visit, occurrencesAll, unseen_append, List.append_assoc]
    split
    · next hseen =>
      -- The reference was seen: it is passed over, and nothing in it would be new.
      have hmem : t ∈ occurrencesAll (t :: rest) :=
        (mem_occurrencesAll_iff_nested _).mpr ⟨t, List.mem_cons_self, Or.inl rfl⟩
      have hall : ∀ u ∈ t.occurrences, u ∈ seen := fun u hu =>
        hexplored.mem_of_mem_occurrences hseen hmem hu
      have hsame : ∀ u, u ∈ t.occurrences ++ seen ↔ u ∈ seen := fun u =>
        ⟨fun hu => (List.mem_append.mp hu).elim (hall u) id, List.mem_append_right _⟩
      have hnone : unseen seen t.occurrences = [] := by
        apply List.eq_nil_iff_forall_not_mem.mpr
        intro u hu
        obtain ⟨hmem, hnew⟩ := mem_unseen_iff.mp hu
        exact hnew (hall u hmem)
      have hrest : Explored seen rest := hexplored.mono fun u hu => List.mem_append_right _ hu
      rw [visit_append seen rest pending hrest, hnone, List.nil_append, unseen_congr hsame]
      congr 1
      apply visit_congr
      grind
    · next hnew =>
      -- The reference is new: its arguments come next, with the reference itself seen, and then the rest.
      rw [visit_append (t :: seen) t.genericArguments (rest ++ pending) hexplored.arguments,
        visit_append _ rest pending hexplored.rest, occurrences_eq, unseen, if_neg hnew,
        List.cons_append]
      congr 2
      have hsame : ∀ u, u ∈ occurrencesAll t.genericArguments ++ t :: seen ↔
          u ∈ t :: occurrencesAll t.genericArguments ++ seen := by grind
      rw [unseen_congr hsame]
      congr 1
      apply visit_congr
      grind
termination_by nodesAll ts
decreasing_by
  all_goals simp only [nodesAll, nodes_eq]; omega

/-- Flattening gives the reference itself, marked, and then each other occurrence once, where it stands
    first. -/
theorem flatten_eq (root : TypeRef) :
    root.flatten = (root, true) ::
      (unseen [] (occurrencesAll root.genericArguments)).map fun t => (t, false) := by
  have hexplored : Explored [] [root] := fun s hs => by cases hs
  have hvisit := visit_append [] [root] [] hexplored
  have hnot : root ∉ occurrencesAll root.genericArguments := fun hmem =>
    not_nested_self root (mem_occurrencesAll_arguments_iff.mp hmem)
  have hlist : visit [] [root] = root :: unseen [] (occurrencesAll root.genericArguments) := by
    simpa [occurrencesAll, occurrences_eq root, unseen, visit, unseen_cons_of_not_mem hnot]
      using hvisit
  rw [flatten, hlist]

/-- Neither a name nor a mark is lost by leaving repetitions out. -/
theorem mem_flatten_iff {root t : TypeRef} {isRoot : Bool} :
    (t, isRoot) ∈ root.flatten ↔
      t = root ∧ isRoot = true ∨ Nested t root ∧ isRoot = false := by
  rw [flatten_eq, List.mem_cons, List.mem_map]
  constructor
  · rintro (heq | ⟨u, hu, heq⟩)
    · cases heq
      exact Or.inl ⟨rfl, rfl⟩
    · cases heq
      obtain ⟨hmem, _⟩ := mem_unseen_iff.mp hu
      exact Or.inr ⟨mem_occurrencesAll_arguments_iff.mp hmem, rfl⟩
  · rintro (⟨rfl, rfl⟩ | ⟨hnested, rfl⟩)
    · exact Or.inl rfl
    · have hmem := mem_occurrencesAll_arguments_iff.mpr hnested
      exact Or.inr ⟨t, mem_unseen_iff.mpr ⟨hmem, List.not_mem_nil⟩, rfl⟩

end PluginHost.TypeRef
