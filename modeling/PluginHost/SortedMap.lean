import PluginHost.Assoc
/-!
Finite maps whose entries are listed in ascending order of their keys, so that equal maps are equal
lists.
-/

namespace PluginHost

/-- Texts are compared character by character. -/
instance textOrder : Trans (α := String) (· < ·) (· < ·) (· < ·) := ⟨String.lt_trans⟩

structure SortedMap (κ α : Type) [LT κ] where
  entries : List (κ × α)
  ascending : Assoc.Ascending entries

namespace SortedMap

variable {κ α : Type} [LT κ]

theorem ext_entries {m n : SortedMap κ α} (h : m.entries = n.entries) : m = n := by
  cases m; cases n; cases h; rfl

instance [DecidableEq κ] [DecidableEq α] : DecidableEq (SortedMap κ α) := fun m n =>
  if h : m.entries = n.entries then isTrue (ext_entries h)
  else isFalse fun heq => h (congrArg entries heq)

def empty : SortedMap κ α := ⟨[], Assoc.ascending_nil⟩

instance : Inhabited (SortedMap κ α) := ⟨empty⟩

def get? [DecidableEq κ] (m : SortedMap κ α) (key : κ) : Option α := Assoc.get? m.entries key

def keys (m : SortedMap κ α) : List κ := m.entries.map (·.1)

def values (m : SortedMap κ α) : List α := m.entries.map (·.2)

variable [DecidableLT κ] [Trans (α := κ) (· < ·) (· < ·) (· < ·)]

/-- The map with one value set. -/
def insert (m : SortedMap κ α) (key : κ) (value : α) : SortedMap κ α :=
  ⟨Assoc.insert key value m.entries, m.ascending.insert⟩

/-- The map of a list of entries; of several values for a key the last stays. -/
def ofList (entries : List (κ × α)) : SortedMap κ α :=
  ⟨Assoc.ofList entries, Assoc.Ascending.ofList entries⟩

theorem ofList_entries [Std.Asymm (α := κ) (· < ·)] (m : SortedMap κ α) : ofList m.entries = m :=
  ext_entries (Assoc.ofList_eq_of_ascending m.ascending)

omit [DecidableLT κ] [Trans (α := κ) (· < ·) (· < ·) (· < ·)] in
theorem ascending_map {β : Type} {entries : List (κ × α)} (f : α → β)
    (h : Assoc.Ascending entries) : Assoc.Ascending (entries.map fun e => (e.1, f e.2)) :=
  List.pairwise_map.mpr h

/-- The map with a function applied to every value. -/
def mapValues {β : Type} (f : α → β) (m : SortedMap κ α) : SortedMap κ β :=
  ⟨m.entries.map fun e => (e.1, f e.2), ascending_map f m.ascending⟩

omit [LT κ] [DecidableLT κ] [Trans (α := κ) (· < ·) (· < ·) (· < ·)] in
theorem get?_insert (m : SortedMap String α) (key : String) (value : α) (other : String) :
    (m.insert key value).get? other = if other = key then some value else m.get? other :=
  Assoc.get?_insert m.entries key value other

/-- The map with a value set under a key that has none yet. -/
def insertNew [DecidableEq κ] (m : SortedMap κ α) (key : κ) (value : α) : SortedMap κ α :=
  match m.get? key with
  | some _ => m
  | none => m.insert key value

omit [LT κ] [DecidableLT κ] [Trans (α := κ) (· < ·) (· < ·) (· < ·)] in
theorem get?_insertNew (m : SortedMap String α) (key : String) (value : α) (other : String) :
    (m.insertNew key value).get? other =
      (m.get? other).or (if other = key then some value else none) := by
  rw [insertNew]
  by_cases h : other = key
  · subst h
    split
    · next found hfound => simp [hfound]
    · next hnone => simp [get?_insert, hnone]
  · split
    · simp [h]
    · simp [get?_insert, h]

end SortedMap

end PluginHost
