import Mathlib.Logic.Relation
import PluginHost.Proofs.Registry.BaseChain
/-!
The search along base types, turn by turn.

The links that it follows are whatever the modules declare, cycles included. It ends all the same, since every turn
but the last meets the name of one more type of the registry; and it gives up at a name that it has met before, which
costs nothing, since from there on it would only go round. Main statement: `derivesFrom_exact`.
-/

namespace PluginHost.Registry

variable {γ : Type} {r : Registry γ} {base name : String}

/-- A name comes to a definition, and its base type has another name. -/
def Extends (r : Registry γ) (name parentName : String) : Prop :=
  ∃ t parent, r.resolve? name = some t ∧ t.baseType = some parent ∧ parent.fullName = parentName

/-- A definition descends from a name exactly if some links lead from its own name there. -/
theorem descends_iff_transGen :
    (∃ t, r.resolve? name = some t ∧ r.Descends base t) ↔ Relation.TransGen r.Extends name base := by
  constructor
  · rintro ⟨t, hresolve, hdescends⟩
    induction hdescends generalizing name with
    | @direct t parent hparent hbase => exact .single ⟨t, parent, hresolve, hparent, hbase⟩
    | @through t u parent hparent hnext _ ih => exact .head ⟨t, parent, hresolve, hparent, rfl⟩ (ih hnext)
  · intro hchain
    induction hchain using Relation.TransGen.head_induction_on with
    | single hlink =>
      obtain ⟨t, parent, hresolve, hparent, hbase⟩ := hlink
      exact ⟨t, hresolve, .direct hparent hbase⟩
    | head hlink _ ih =>
      obtain ⟨t, parent, hresolve, hparent, rfl⟩ := hlink
      obtain ⟨u, hnext, hdescends⟩ := ih
      exact ⟨t, hresolve, .through hparent hnext hdescends⟩

/-- Where a search stands: the names that it has met, and the definition that it looks at next if there is one. -/
structure Search where
  seen : List String
  current : Option TypeDef

namespace Search

/-- A search that has not begun. -/
def start (r : Registry γ) (name : String) : Search := ⟨[], r.resolve? name⟩

/-- In one turn, a search comes to an answer or goes on. -/
def turn (r : Registry γ) (base : String) (s : Search) : Bool ⊕ Search :=
  match s.current with
  | none => .inl false
  | some t =>
    if t.fullName ∈ s.seen then .inl false
    else match t.baseType with
      | none => .inl false
      | some parent =>
        if parent.fullName = base then .inl true
        else .inr ⟨t.fullName :: s.seen, r.resolve? parent.fullName⟩

/-- A search comes to an answer after some turns. -/
inductive EndsAfter (r : Registry γ) (base : String) : Nat → Search → Bool → Prop
  | answer {s : Search} {found : Bool} (hturn : s.turn r base = .inl found) : EndsAfter r base 1 s found
  | goOn {n : Nat} {s next : Search} {found : Bool} (hturn : s.turn r base = .inr next)
      (hrest : EndsAfter r base n next found) : EndsAfter r base (n + 1) s found

/-- The names that were met are different names of types, so there are at most as many. -/
structure Sound (r : Registry γ) (seen : List String) : Prop where
  nodup : seen.Nodup
  subset : seen ⊆ r.definitions.map TypeDef.fullName

theorem Sound.nil : Sound r [] := ⟨List.nodup_nil, List.nil_subset _⟩

theorem Sound.cons {seen : List String} {t : TypeDef} (h : Sound r seen) (hresolve : r.resolve? name = some t)
    (hnew : t.fullName ∉ seen) : Sound r (t.fullName :: seen) where
  nodup := List.nodup_cons.mpr ⟨hnew, h.nodup⟩
  subset := List.cons_subset.mpr ⟨List.mem_map_of_mem (mem_definitions_of_resolve? hresolve), h.subset⟩

theorem Sound.length_le {seen : List String} (h : Sound r seen) : seen.length ≤ r.typeCount := by
  have hle := (h.nodup.subperm h.subset).length_le
  rwa [List.length_map] at hle

/-- A turn comes to an answer, or it meets a new name and leaves the rest of the search to be done. -/
theorem turn_cases (r : Registry γ) (base : String) (seen : List String) (name : String) :
    (∃ found, turn r base ⟨seen, r.resolve? name⟩ = .inl found ∧
      ∀ fuel, r.reaches base (fuel + 1) seen name = found) ∨
    ∃ (t : TypeDef) (parent : TypeRef), r.resolve? name = some t ∧ t.fullName ∉ seen ∧
      turn r base ⟨seen, r.resolve? name⟩ = .inr ⟨t.fullName :: seen, r.resolve? parent.fullName⟩ ∧
      ∀ fuel, r.reaches base (fuel + 1) seen name = r.reaches base fuel (t.fullName :: seen) parent.fullName := by
  cases hresolve : r.resolve? name with
  | none => exact .inl ⟨false, rfl, fun fuel => by simp [reaches, hresolve]⟩
  | some t =>
    by_cases hmet : t.fullName ∈ seen
    · exact .inl ⟨false, by simp [turn, hmet], fun fuel => by simp [reaches, hresolve, hmet]⟩
    cases hparent : t.baseType with
    | none => exact .inl ⟨false, by simp [turn, hmet, hparent], fun fuel => by simp [reaches, hresolve, hparent]⟩
    | some parent =>
      by_cases hbase : parent.fullName = base
      · refine .inl ⟨true, by simp [turn, hmet, hparent, hbase], fun fuel => ?_⟩
        simp [reaches, hresolve, hmet, hparent, hbase]
      · refine .inr ⟨t, parent, rfl, hmet, by simp [turn, hmet, hparent, hbase], fun fuel => ?_⟩
        simp [reaches, hresolve, hmet, hparent, hbase]

/-- As long as there is fuel for all types that have not been met, it is not used up. -/
theorem endsAfter_reaches {fuel : Nat} {seen : List String} (hsound : Sound r seen)
    (hfuel : r.typeCount < fuel + seen.length) :
    ∃ n ≤ fuel, EndsAfter r base n ⟨seen, r.resolve? name⟩ (r.reaches base fuel seen name) := by
  induction fuel generalizing seen name with
  | zero =>
    have hle := hsound.length_le
    omega
  | succ fuel ih =>
    obtain ⟨found, hturn, hreaches⟩ | ⟨t, parent, hresolve, hnew, hturn, hreaches⟩ := turn_cases r base seen name
    · rw [hreaches]
      exact ⟨1, Nat.le_add_left 1 fuel, .answer hturn⟩
    · have hleft : r.typeCount < fuel + (t.fullName :: seen).length := by
        rw [List.length_cons]
        omega
      obtain ⟨n, hn, hrest⟩ := ih (hsound.cons hresolve hnew) hleft
      rw [hreaches]
      exact ⟨n + 1, Nat.succ_le_succ hn, .goOn hturn hrest⟩

end Search

/-- In every registry the search ends, after at most one turn more than there are types. Its answer is yes exactly if
    a chain of base types, at least one link long, leads from the one name to the other. -/
theorem derivesFrom_exact (r : Registry γ) (name base : String) :
    (∃ n ≤ r.typeCount + 1, Search.EndsAfter r base n (.start r name) (r.derivesFrom name base)) ∧
    (r.derivesFrom name base = true ↔ Relation.TransGen r.Extends name base) :=
  ⟨Search.endsAfter_reaches .nil (Nat.lt_succ_self _), derivesFrom_iff.trans descends_iff_transGen⟩

end PluginHost.Registry
