/-!
Association lists in ascending order of their keys.
-/

namespace PluginHost.Assoc

variable {κ α : Type}

/-- The value of the first entry with a key. -/
def get? [DecidableEq κ] (entries : List (κ × α)) (key : κ) : Option α :=
  (entries.find? fun e => e.1 = key).map (·.2)

/-- What is found under a key is there under it. -/
theorem mem_of_get? [DecidableEq κ] {entries : List (κ × α)} {key : κ} {value : α}
    (hget : get? entries key = some value) : (key, value) ∈ entries := by
  obtain ⟨⟨found, _⟩, hfind, rfl⟩ := Option.map_eq_some_iff.mp hget
  have hkey : found = key := by simpa using List.find?_some hfind
  exact hkey ▸ List.mem_of_find?_eq_some hfind

variable [LT κ] [DecidableLT κ]

/-- Puts a value at the place of its key; an entry with that key is replaced. -/
def insert (key : κ) (value : α) : List (κ × α) → List (κ × α)
  | [] => [(key, value)]
  | e :: rest =>
    if key < e.1 then (key, value) :: e :: rest
    else if e.1 < key then e :: insert key value rest
    else (e.1, value) :: rest

/-- The entries of a list in ascending order; of several values for a key the last stays. -/
def ofList (entries : List (κ × α)) : List (κ × α) :=
  entries.foldl (fun sorted e => insert e.1 e.2 sorted) []

/-- The keys ascend strictly. -/
def Ascending (entries : List (κ × α)) : Prop :=
  entries.Pairwise fun a b => a.1 < b.1

omit [DecidableLT κ] in
theorem ascending_nil : Ascending ([] : List (κ × α)) := List.Pairwise.nil

/-- A key of the list after an insertion is the new key or was there before. -/
theorem mem_keys_insert {key : κ} {value : α} {entries : List (κ × α)} {k : κ}
    (hmem : k ∈ (insert key value entries).map (·.1)) :
    k = key ∨ k ∈ entries.map (·.1) := by
  induction entries with
  | nil => simpa [insert] using hmem
  | cons e rest ih =>
    unfold insert at hmem
    split at hmem
    · simpa using hmem
    · split at hmem
      · simp only [List.map_cons, List.mem_cons] at hmem ⊢
        rcases hmem with rfl | hrest
        · exact Or.inr (Or.inl rfl)
        · rcases ih hrest with rfl | hold
          · exact Or.inl rfl
          · exact Or.inr (Or.inr hold)
      · exact Or.inr (by simpa using hmem)

omit [DecidableLT κ] in
theorem ascending_iff_keys [Trans (α := κ) (· < ·) (· < ·) (· < ·)] {e : κ × α}
    {rest : List (κ × α)} :
    Ascending (e :: rest) ↔ (∀ k ∈ rest.map (·.1), e.1 < k) ∧ Ascending rest := by
  simp [Ascending, List.pairwise_cons]

/-- Insertion keeps the order. -/
theorem Ascending.insert [Trans (α := κ) (· < ·) (· < ·) (· < ·)] {key : κ} {value : α}
    {entries : List (κ × α)} (hasc : Ascending entries) :
    Ascending (insert key value entries) := by
  induction entries with
  | nil => simp [Assoc.insert, Ascending]
  | cons e rest ih =>
    obtain ⟨hhead, hrest⟩ := ascending_iff_keys.mp hasc
    unfold Assoc.insert
    split
    · next hlt =>
      refine ascending_iff_keys.mpr ⟨?_, hasc⟩
      intro k hk
      simp only [List.map_cons, List.mem_cons] at hk
      rcases hk with rfl | hk
      · exact hlt
      · exact Std.lt_trans hlt (hhead k hk)
    · split
      · next hgt =>
        refine ascending_iff_keys.mpr ⟨?_, ih hrest⟩
        intro k hk
        rcases mem_keys_insert hk with rfl | hold
        · exact hgt
        · exact hhead k hold
      · exact ascending_iff_keys.mpr ⟨hhead, hrest⟩

theorem Ascending.ofList [Trans (α := κ) (· < ·) (· < ·) (· < ·)] (entries : List (κ × α)) :
    Ascending (ofList entries) := by
  suffices h : ∀ sorted : List (κ × α), Ascending sorted →
      Ascending (entries.foldl (fun s e => Assoc.insert e.1 e.2 s) sorted) from h [] ascending_nil
  induction entries with
  | nil => exact fun _ hs => hs
  | cons e rest ih => exact fun _ hs => ih _ hs.insert

/-- A key above all others is put at the end. -/
theorem insert_of_above [Std.Asymm (α := κ) (· < ·)] {key : κ} {value : α} {entries : List (κ × α)}
    (habove : ∀ e ∈ entries, e.1 < key) : insert key value entries = entries ++ [(key, value)] := by
  induction entries with
  | nil => rfl
  | cons e rest ih =>
    rw [List.forall_mem_cons] at habove
    rw [insert, if_neg (Std.Asymm.asymm _ _ habove.1), if_pos habove.1, ih habove.2, List.cons_append]

/-- Entries that stand in order already stay as they are. -/
theorem ofList_eq_of_ascending [Std.Asymm (α := κ) (· < ·)] {entries : List (κ × α)} (hasc : Ascending entries) :
    ofList entries = entries := by
  suffices h : ∀ sorted : List (κ × α), Ascending (sorted ++ entries) →
      entries.foldl (fun s e => insert e.1 e.2 s) sorted = sorted ++ entries from h [] hasc
  clear hasc
  induction entries with
  | nil => exact fun sorted _ => (List.append_nil sorted).symm
  | cons e rest ih =>
    intro sorted hall
    have habove : ∀ s ∈ sorted, s.1 < e.1 := fun s hs =>
      (List.pairwise_append.mp hall).2.2 s hs e List.mem_cons_self
    rw [List.foldl_cons, insert_of_above habove, ih, List.append_assoc, List.singleton_append]
    rwa [List.append_assoc, List.singleton_append]

/-- In a list of any order, an insertion changes what is found under its own key and nothing else. -/
theorem get?_insert (entries : List (String × α)) (key : String) (value : α) (other : String) :
    get? (insert key value entries) other = if other = key then some value else get? entries other := by
  induction entries with
  | nil => by_cases h : key = other <;> simp [insert, get?, h, eq_comm]
  | cons e rest ih =>
    rw [insert]
    by_cases hbefore : key < e.1
    · rw [if_pos hbefore]
      by_cases h : key = other <;> simp [get?, h, eq_comm]
    · rw [if_neg hbefore]
      by_cases hbehind : e.1 < key
      · rw [if_pos hbehind]
        have hne : e.1 ≠ key := fun heq => String.lt_irrefl key (heq ▸ hbehind)
        by_cases h : e.1 = other
        · have hother : other ≠ key := h ▸ hne
          simp [get?, h, hother]
        · have hrest : get? (e :: insert key value rest) other = get? (insert key value rest) other := by
            simp [get?, h]
          rw [hrest, ih]
          simp [get?, h]
      · have heq : e.1 = key := String.le_antisymm (String.not_lt.mp hbefore) (String.not_lt.mp hbehind)
        rw [if_neg hbehind]
        by_cases h : key = other <;> simp [get?, heq, h, eq_comm]

end PluginHost.Assoc
