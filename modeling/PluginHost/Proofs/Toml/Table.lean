import PluginHost.Json.Record
import PluginHost.Proofs.Json.Numeral
import PluginHost.SortedMap
import PluginHost.Toml.Reader
import PluginHost.Toml.Tree
/-!
The tables of a document that was read, and the records that are read from them.

Keys ascend in every table, however deep it lies. So no key stands twice, and every field of a record comes from
what stands under its name.
-/

namespace PluginHost

namespace Assoc

variable {κ α : Type} [LT κ] [DecidableLT κ]

/-- No value is made up by putting entries in order. -/
theorem mem_values_insert {key : κ} {value : α} {entries : List (κ × α)} {v : α}
    (hmem : v ∈ (insert key value entries).map (·.2)) : v = value ∨ v ∈ entries.map (·.2) := by
  induction entries with
  | nil => simpa [insert] using hmem
  | cons e rest ih =>
    rw [insert] at hmem
    split at hmem
    · simpa using hmem
    · split at hmem
      · rw [List.map_cons, List.mem_cons] at hmem ⊢
        rcases hmem with rfl | hrest
        · exact Or.inr (Or.inl rfl)
        · exact (ih hrest).imp_right Or.inr
      · rw [List.map_cons, List.mem_cons] at hmem ⊢
        exact hmem.imp_right Or.inr

theorem mem_values_ofList {entries : List (κ × α)} {v : α} (hmem : v ∈ (ofList entries).map (·.2)) :
    v ∈ entries.map (·.2) := by
  suffices h : ∀ sorted : List (κ × α),
      v ∈ (entries.foldl (fun s e => insert e.1 e.2 s) sorted).map (·.2) →
        v ∈ sorted.map (·.2) ∨ v ∈ entries.map (·.2) from
    (h [] hmem).resolve_left List.not_mem_nil
  clear hmem
  induction entries with
  | nil => exact fun _ h => Or.inl h
  | cons e rest ih =>
    intro sorted hmem
    rw [List.map_cons, List.mem_cons]
    rcases ih _ hmem with hsorted | hrest
    · rcases mem_values_insert hsorted with rfl | hold
      · exact Or.inr (Or.inl rfl)
      · exact Or.inl hold
    · exact Or.inr (Or.inr hrest)

theorem nodup_keys {entries : List (String × α)} (hasc : Ascending entries) : (entries.map (·.1)).Nodup := by
  refine List.pairwise_map.mpr (List.Pairwise.imp (fun {a b} hlt => ?_) hasc)
  intro heq
  rw [heq] at hlt
  exact String.lt_irrefl b.1 hlt

theorem mem_values_of_get? {entries : List (String × α)} {key : String} {v : α} (hget : get? entries key = some v) :
    v ∈ entries.map (·.2) :=
  List.mem_map_of_mem (mem_of_get? hget)

end Assoc

namespace Toml

/-- Keys ascend in every table of a value. -/
inductive Value.Ordered : Value → Prop
  | str (text : String) : Ordered (.str text)
  | int (n : Int) : Ordered (.int n)
  | float (x : Binary64) : Ordered (.float x)
  | bool (b : Bool) : Ordered (.bool b)
  | datetime (d : Datetime) : Ordered (.datetime d)
  | arr {items : List Value} : (∀ v ∈ items, Ordered v) → Ordered (.arr items)
  | table {entries : Table} : Assoc.Ascending entries → (∀ v ∈ entries.map (·.2), Ordered v) →
    Ordered (.table entries)

mutual

theorem Value.ordered_sorted : ∀ v : Value, v.sorted.Ordered
  | .str text => .str text
  | .int n => .int n
  | .float x => .float x
  | .bool b => .bool b
  | .datetime d => .datetime d
  | .arr items => .arr (ordered_sortedItems items)
  | .table entries =>
    .table (.ofList _) fun v hv => ordered_sortedParts entries v (Assoc.mem_values_ofList hv)

theorem ordered_sortedItems : ∀ items : List Value, ∀ v ∈ Value.sortedItems items, v.Ordered
  | [], _, hv => absurd hv List.not_mem_nil
  | item :: rest, v, hv => by
    rcases List.mem_cons.mp hv with rfl | hrest
    · exact item.ordered_sorted
    · exact ordered_sortedItems rest v hrest

theorem ordered_sortedParts :
    ∀ entries : List (String × Value), ∀ v ∈ (Value.sortedParts entries).map (·.2), v.Ordered
  | [], _, hv => absurd hv List.not_mem_nil
  | (_, value) :: rest, v, hv => by
    rcases List.mem_cons.mp hv with rfl | hrest
    · exact value.ordered_sorted
    · exact ordered_sortedParts rest v hrest

end

/-- A document comes to an ordered table, in whatever order it was written. -/
theorem ordered_of_document? {text : String} {doc : Table} (hdoc : document? text = some doc) :
    (Value.table doc).Ordered := by
  obtain ⟨written, _, rfl⟩ := Option.map_eq_some_iff.mp hdoc
  exact Value.ordered_sorted (.table written)

end Toml

open Json (Field Record Tree)

/-- A field comes to a value: that of the part under its name, or the one that stands for its absence. -/
inductive Json.Field.Reads {ρ α : Type} (f : Field ρ α) (c : Json.Context) (parts : List (String × Tree))
    (value : α) : Prop
  | part {t : Tree} : parts.lookup f.name = some t → f.decode c t = some value → Reads f c parts value
  | absent : parts.lookup f.name = none → f.absent = some value → Reads f c parts value

/-- A record is put together from what its fields come to. -/
theorem Json.Record.build_field {ρ α β : Type} {before : Record ρ (α → β)} {next : Field ρ α}
    {c : Json.Context} {parts : List (String × Tree)} {make : α → β} {value : α}
    (hbefore : before.build c parts = some make) (hnext : next.Reads c parts value) :
    (Record.field before next).build c parts = some (make value) := by
  cases hnext with
  | part hlookup hdecode => simp [build, hbefore, hlookup, hdecode]
  | absent hlookup habsent => simp [build, hbefore, hlookup, habsent]

namespace Toml

/-- What stands under a known name in a table is what is found under the name among its parts. -/
theorem partsOfMembers?_treeMembers (known : List (String × Bool)) {t : Table}
    (hnodup : (t.map (·.1)).Nodup) :
    ∃ parts, Record.partsOfMembers? known (treeMembers t) = some parts ∧
      ∀ name, parts.lookup name =
        if (known.lookup name).isSome then (Assoc.get? t name).map Value.tree else none := by
  induction t with
  | nil => exact ⟨[], rfl, fun name => by simp [Assoc.get?]⟩
  | cons e rest ih =>
    obtain ⟨key, v⟩ := e
    rw [List.map_cons, List.nodup_cons] at hnodup
    obtain ⟨parts, hparts, hlookup⟩ := ih hnodup.2
    have hmissing : Assoc.get? rest key = none := by
      rw [Assoc.get?, Option.map_eq_none_iff, List.find?_eq_none]
      intro other hother
      rw [decide_eq_true_eq]
      rintro rfl
      exact hnodup.1 (List.mem_map.mpr ⟨other, hother, rfl⟩)
    have hbehind : ∀ name, name ≠ key → Assoc.get? ((key, v) :: rest) name = Assoc.get? rest name := by
      intro name hname
      rw [Assoc.get?, List.find?_cons_of_neg (by simpa using hname.symm), ← Assoc.get?]
    by_cases hknown : (known.lookup key).isSome
    · refine ⟨(key, v.tree) :: parts, ?_, fun name => ?_⟩
      · have hnew : parts.lookup key = none := by rw [hlookup, if_pos hknown, hmissing]; rfl
        simp [treeMembers, Record.partsOfMembers?, spelled, hparts, Option.isSome_iff_ne_none.mp hknown, hnew]
      · by_cases hname : name = key
        · subst hname
          simp [hknown, Assoc.get?]
        · rw [List.lookup_cons, beq_false_of_ne hname, hlookup, hbehind name hname]
    · refine ⟨parts, ?_, fun name => ?_⟩
      · simp [treeMembers, Record.partsOfMembers?, spelled, hparts, Option.not_isSome_iff_eq_none.mp hknown]
      · by_cases hname : name = key
        · subst hname
          rw [hlookup, if_neg hknown, if_neg hknown]
        · rw [hlookup, hbehind name hname]

/-- What a record reads from a table is put together from what stands under the names of its fields. -/
theorem decode_table {ρ β : Type} (r : Record ρ β) {t : Table} (hnodup : (t.map (·.1)).Nodup) :
    ∃ parts : List (String × Tree),
      (∀ name, (r.names.lookup name).isSome → parts.lookup name = (Assoc.get? t name).map Value.tree) ∧
      ∀ depth surplus, r.decode ⟨depth + 1, surplus⟩ (Value.table t).tree = r.build ⟨depth, surplus⟩ parts := by
  obtain ⟨parts, hparts, hlookup⟩ := partsOfMembers?_treeMembers r.names hnodup
  refine ⟨parts, fun name hname => by rw [hlookup, if_pos hname], fun depth surplus => ?_⟩
  simp only [Value.tree, Record.decode, Json.Context.enter, Option.bind_eq_bind, Option.bind_some, hparts]

/-- A list of texts is read as it is written. -/
theorem mapM_text_treeItems (c : Json.Context) (texts : List String) :
    (treeItems (texts.map .str)).mapM (Json.Decoder.text c) = some texts := by
  induction texts with
  | nil => rfl
  | cons text rest ih =>
    rw [List.map_cons, treeItems, List.mapM_cons, ih]
    rfl

/-- Integers are the same numbers as in JSON. -/
theorem ofInt_eq (n : Int) : ofInt n = Json.Number.ofInt n := by
  cases n with
  | ofNat n => simp [ofInt, Json.Number.ofInt]
  | negSucc n => simp [ofInt, Json.Number.ofInt, Int.negSucc_lt_zero, Int.natAbs_negSucc]

end Toml

end PluginHost
