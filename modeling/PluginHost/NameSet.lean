/-!
Finite sets of names, listed in ascending order, so that equal sets are equal lists.
-/

namespace PluginHost

structure NameSet where
  names : List String
  ascending : names.Pairwise (· < ·)
deriving DecidableEq

namespace NameSet

def empty : NameSet := ⟨[], List.Pairwise.nil⟩

instance : Inhabited NameSet := ⟨empty⟩

instance : Membership String NameSet := ⟨fun set name => name ∈ set.names⟩

instance (name : String) (set : NameSet) : Decidable (name ∈ set) :=
  inferInstanceAs (Decidable (name ∈ set.names))

def size (set : NameSet) : Nat := set.names.length

/-- Puts a name at its place, unless it stands there already. -/
def insertName (name : String) : List String → List String
  | [] => [name]
  | n :: rest =>
    if name < n then name :: n :: rest
    else if n < name then n :: insertName name rest
    else n :: rest

/-- An insertion adds the name and nothing else. -/
theorem mem_insertName {name x : String} {names : List String} :
    x ∈ insertName name names ↔ x = name ∨ x ∈ names := by
  induction names with
  | nil => simp [insertName]
  | cons n rest ih =>
    unfold insertName
    split
    · simp
    · split
      · simp only [List.mem_cons, ih]
        constructor
        · rintro (h | h | h) <;> simp [h]
        · rintro (h | h | h) <;> simp [h]
      · next hlt hgt =>
        have heq : name = n :=
          String.le_antisymm (Std.not_lt.mp hgt) (Std.not_lt.mp hlt)
        simp [heq]

theorem pairwise_insertName {name : String} {names : List String}
    (hasc : names.Pairwise (· < ·)) : (insertName name names).Pairwise (· < ·) := by
  induction names with
  | nil => simp [insertName]
  | cons n rest ih =>
    obtain ⟨hhead, hrest⟩ := List.pairwise_cons.mp hasc
    unfold insertName
    split
    · next hlt =>
      refine List.pairwise_cons.mpr ⟨?_, hasc⟩
      intro x hx
      rcases List.mem_cons.mp hx with rfl | hx
      · exact hlt
      · exact String.lt_trans hlt (hhead x hx)
    · split
      · next hgt =>
        refine List.pairwise_cons.mpr ⟨?_, ih hrest⟩
        intro x hx
        rcases mem_insertName.mp hx with rfl | hx
        · exact hgt
        · exact hhead x hx
      · exact hasc

def insert (set : NameSet) (name : String) : NameSet :=
  ⟨insertName name set.names, pairwise_insertName set.ascending⟩

@[simp]
theorem mem_insert {set : NameSet} {name x : String} :
    x ∈ set.insert name ↔ x = name ∨ x ∈ set := mem_insertName

/-- The set of the names of a list. -/
def ofList (names : List String) : NameSet := names.foldl insert empty

theorem mem_ofList {names : List String} {x : String} : x ∈ ofList names ↔ x ∈ names := by
  suffices h : ∀ set : NameSet, x ∈ names.foldl insert set ↔ x ∈ set ∨ x ∈ names by
    have hempty : ¬ x ∈ empty := List.not_mem_nil
    simpa [ofList, hempty] using h empty
  induction names with
  | nil => simp
  | cons n rest ih =>
    intro set
    simp only [List.foldl_cons, ih, mem_insert, List.mem_cons]
    constructor
    · rintro ((h | h) | h) <;> simp [h]
    · rintro (h | h | h) <;> simp [h]

/-- A name above all others is put at the end. -/
theorem insertName_of_above {name : String} {names : List String} (habove : ∀ n ∈ names, n < name) :
    insertName name names = names ++ [name] := by
  induction names with
  | nil => rfl
  | cons n rest ih =>
    rw [List.forall_mem_cons] at habove
    have hnot : ¬ name < n := fun h => String.lt_irrefl n (String.lt_trans habove.1 h)
    rw [insertName, if_neg hnot, if_pos habove.1, ih habove.2, List.cons_append]

theorem names_foldl_insert {names : List String} {set : NameSet} (hasc : (set.names ++ names).Pairwise (· < ·)) :
    (names.foldl insert set).names = set.names ++ names := by
  induction names generalizing set with
  | nil => exact (List.append_nil _).symm
  | cons n rest ih =>
    have habove : ∀ m ∈ set.names, m < n := fun m hm => (List.pairwise_append.mp hasc).2.2 m hm n List.mem_cons_self
    have hinsert : (set.insert n).names = set.names ++ [n] := insertName_of_above habove
    rw [List.foldl_cons, ih, hinsert, List.append_assoc, List.singleton_append]
    rwa [hinsert, List.append_assoc, List.singleton_append]

/-- The names of a set make up the set. -/
theorem ofList_names (set : NameSet) : ofList set.names = set := by
  have hnames : (ofList set.names).names = set.names := names_foldl_insert set.ascending
  generalize ofList set.names = other at hnames
  cases other
  cases hnames
  rfl

def any (set : NameSet) (p : String → Bool) : Bool := set.names.any p

end NameSet

end PluginHost
